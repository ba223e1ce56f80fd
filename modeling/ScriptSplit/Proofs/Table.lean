import Mathlib.Data.List.Nodup
import ScriptSplit.Table

/-!
# Lookups in tables
-/

namespace ScriptSplit.Table

variable {α : Type}

theorem get?_cons (entry : String × α) (table : Table α) (name : String) :
    get? (entry :: table) name = if name = entry.1 then some entry.2 else get? table name := by
  obtain ⟨key, value⟩ := entry
  by_cases hname : name = key
  · subst hname
    simp [get?]
  · have hne : (name == key) = false := by simpa using hname
    simp [get?, List.lookup_cons, hne, hname]

theorem mem_of_get? {table : Table α} {name : String} {value : α}
    (hget : table.get? name = some value) : (name, value) ∈ table := by
  induction table with
  | nil => simp [get?] at hget
  | cons entry table ih =>
      rw [get?_cons] at hget
      split at hget
      · next hname =>
          cases hget
          simp [hname]
      · exact List.mem_cons_of_mem _ (ih hget)

theorem get?_put (table : Table α) (name : String) (value : α) (other : String) :
    (table.put name value).get? other = if other = name then some value else table.get? other := by
  induction table with
  | nil => simp [put, get?_cons]
  | cons entry table ih =>
      obtain ⟨key, old⟩ := entry
      unfold put
      by_cases hkey : key = name
      · subst hkey
        rw [if_pos rfl, get?_cons, get?_cons]
        by_cases hother : other = key
        · simp [hother]
        · simp [hother]
      · rw [if_neg hkey, get?_cons, get?_cons, ih]
        by_cases hother : other = key
        · subst hother
          simp [hkey]
        · simp [hother]

theorem mem_put {table : Table α} {name : String} {value : α} {entry : String × α}
    (hentry : entry ∈ table.put name value) : entry = (name, value) ∨ entry ∈ table := by
  induction table with
  | nil =>
      simp only [put, List.mem_singleton] at hentry
      exact Or.inl hentry
  | cons first table ih =>
      obtain ⟨key, old⟩ := first
      unfold put at hentry
      split at hentry
      · rcases List.mem_cons.1 hentry with hfirst | hrest
        · exact Or.inl hfirst
        · exact Or.inr (List.mem_cons_of_mem _ hrest)
      · rcases List.mem_cons.1 hentry with hfirst | hrest
        · exact Or.inr (hfirst ▸ List.mem_cons_self)
        · rcases ih hrest with hnew | hold
          · exact Or.inl hnew
          · exact Or.inr (List.mem_cons_of_mem _ hold)

theorem keys_put (table : Table α) (name : String) (value : α) :
    (table.put name value).map (·.1) =
      if name ∈ table.map (·.1) then table.map (·.1) else table.map (·.1) ++ [name] := by
  induction table with
  | nil => simp [put]
  | cons entry table ih =>
      obtain ⟨key, old⟩ := entry
      unfold put
      by_cases hkey : key = name
      · simp [hkey]
      · rw [if_neg hkey, List.map_cons, ih]
        by_cases hmem : name ∈ table.map (·.1)
        · simp [hmem]
        · simp [hmem, Ne.symm hkey]

theorem put_of_not_mem {table : Table α} {name : String} (h : name ∉ table.map (·.1))
    (value : α) : table.put name value = table ++ [(name, value)] := by
  induction table with
  | nil => rfl
  | cons entry table ih =>
      obtain ⟨key, old⟩ := entry
      simp only [List.map_cons, List.mem_cons, not_or] at h
      rw [put, if_neg (Ne.symm h.1), ih h.2, List.cons_append]

theorem nodup_keys_put {table : Table α} (h : (table.map (·.1)).Nodup) (name : String) (value : α) :
    ((table.put name value).map (·.1)).Nodup := by
  rw [keys_put]
  split
  · exact h
  · next hfresh => exact List.nodup_append'.2 ⟨h, List.nodup_singleton name, by simpa using hfresh⟩

theorem get?_of_mem {table : Table α} (h : (table.map (·.1)).Nodup) {name : String} {value : α}
    (hmem : (name, value) ∈ table) : table.get? name = some value := by
  induction table with
  | nil => cases hmem
  | cons entry table ih =>
      rw [List.map_cons, List.nodup_cons] at h
      rw [get?_cons]
      rcases List.mem_cons.1 hmem with rfl | hmem
      · exact if_pos rfl
      · rw [if_neg, ih h.2 hmem]
        rintro rfl
        exact h.1 (List.mem_map.2 ⟨_, hmem, rfl⟩)

theorem get?_perm {table other : Table α} (h : (table.map (·.1)).Nodup) (hperm : other.Perm table)
    (name : String) : other.get? name = table.get? name := by
  have hother : (other.map (·.1)).Nodup := (hperm.map _).nodup_iff.2 h
  apply Option.ext
  intro value
  constructor
  · exact fun hget => get?_of_mem h (hperm.mem_iff.1 (mem_of_get? hget))
  · exact fun hget => get?_of_mem hother (hperm.mem_iff.2 (mem_of_get? hget))

theorem get?_append (table more : Table α) (name : String) :
    get? (table ++ more) name = (get? table name).or (get? more name) := by
  induction table with
  | nil => simp [get?]
  | cons entry table ih =>
      rw [List.cons_append, get?_cons, get?_cons, ih]
      split <;> rfl

theorem get?_putNew (table : Table α) (name : String) (value : α) (other : String) :
    (table.putNew name value).get? other =
      (table.get? other).or (if other = name then some value else none) := by
  unfold putNew
  split
  · next found hfound =>
      by_cases hother : other = name
      · subst hother
        simp [hfound]
      · simp [hother]
  · rw [get?_append, get?_cons]
    rfl

end ScriptSplit.Table
