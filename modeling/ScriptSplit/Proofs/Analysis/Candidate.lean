import ScriptSplit.Analysis.Basic
import ScriptSplit.Proofs.Source.Repair

/-!
# Where candidates stand

Whichever way the candidates are found, each of them has a span within the text. Of any candidates those are
kept that no other one covers, and the kept ones rise with both ends.
-/

namespace ScriptSplit

/-! ## Searching a text -/

namespace Text

theorem findFrom?_bounds {text needle : Text} {start found : Nat}
    (h : findFrom? text needle start = some found) : start ≤ found ∧ found ≤ text.length := by
  have hfind {text : Text} {found : Nat} (h : find? text needle = some found) : found ≤ text.length := by
    induction text generalizing found with
    | nil =>
        unfold find? at h
        split at h
        · exact (Option.some.inj h).symm.le
        · cases h
    | cons c rest ih =>
        unfold find? at h
        split at h
        · obtain rfl := Option.some.inj h
          exact Nat.zero_le _
        · obtain ⟨inside, hinside, rfl⟩ := Option.map_eq_some_iff.1 h
          exact Nat.succ_le_succ (ih hinside)
  unfold findFrom? at h
  split at h
  · cases h
  · obtain ⟨inside, hinside, rfl⟩ := Option.map_eq_some_iff.1 h
    have hbound := hfind hinside
    rw [List.length_drop] at hbound
    omega

theorem findAllFrom_bounds {α : Type} {recognise : Recogniser α}
    (hrecognise : ∀ before text value n, recognise before text = some (value, n) → n ≤ text.length)
    {offset skip : Nat} {before : Option Char} {text : Text} {found : Found α}
    (h : found ∈ findAllFrom recognise offset before skip text) :
    offset ≤ found.start ∧ found.start ≤ found.stop ∧ found.stop ≤ offset + text.length := by
  induction text generalizing offset skip before with
  | nil => cases h
  | cons c rest ih =>
      have hlater {skip : Nat} (h : found ∈ findAllFrom recognise (offset + 1) (some c) skip rest) :
          offset ≤ found.start ∧ found.start ≤ found.stop ∧
            found.stop ≤ offset + (c :: rest).length := by
        obtain ⟨hstart, hstop, hlength⟩ := ih h
        rw [List.length_cons]
        omega
      unfold findAllFrom at h
      split at h
      · exact hlater h
      · split at h
        · next value n hvalue =>
            rcases List.mem_cons.1 h with rfl | h
            · have hn := hrecognise _ _ _ _ hvalue
              exact ⟨le_refl _, Nat.le_add_right _ _, Nat.add_le_add_left hn _⟩
            · exact hlater h
        · exact hlater h

end Text

/-! ## Spans within the text -/

def Candidate.Placed (limit : Nat) (c : Candidate) : Prop :=
  c.start ≤ c.stop ∧ c.stop ≤ limit

theorem docCommentStart_le (text : Text) (offset : Nat) :
    (docCommentStart text offset).getD offset ≤ offset := by
  generalize hdoc : docCommentStart text offset = doc
  unfold docCommentStart at hdoc
  generalize "/**".toList = opener, "*/".toList = closer at hdoc
  dsimp only at hdoc
  split at hdoc
  · rw [← hdoc, Option.getD_none]
  · split at hdoc
    · rw [← hdoc, Option.getD_none]
    · next close hclose =>
        have hbound := Text.findFrom?_bounds hclose
        split at hdoc
        · rw [← hdoc, Option.getD_none]
        · split at hdoc
          · rw [← hdoc, Option.getD_some]
            omega
          · rw [← hdoc, Option.getD_none]

theorem validateEnd_bounds (text : Text) (start : Nat) {stop : Nat} (hstop : stop ≤ text.length)
    (check : Option Repair.Check) :
    stop ≤ validateEnd text start stop check ∧ validateEnd text start stop check ≤ text.length := by
  unfold validateEnd
  rw [Nat.min_eq_left hstop]
  simp only
  cases hgood : Repair.firstGoodEnd text (Repair.pullBackStart text start stop) stop
      (min text.length (stop + Repair.lookahead)) check with
  | none => exact ⟨le_refl _, hstop⟩
  | some good =>
      obtain ⟨hle, hlimit, -⟩ := Repair.firstGoodEnd_eq_some hgood
      exact ⟨hle, hlimit.trans (Nat.min_le_left _ _)⟩

/-! ## Patterns in the text -/

namespace PatternScan

theorem functionAt_le (before : Option Char) (text : Text) (name : String) (n : Nat)
    (h : functionAt before text = some (name, n)) : n ≤ text.length := by
  unfold functionAt at h
  split at h
  · cases h
  · simp only [bind, Option.bind_eq_some_iff] at h
    obtain ⟨_, -, _, -, ⟨_, _⟩, -, h⟩ := h
    split at h
    · obtain ⟨-, rfl⟩ := Prod.mk.inj (Option.some.inj h)
      exact Nat.sub_le _ _
    · cases h

theorem variableAt_le (before : Option Char) (text : Text) (name : String) (n : Nat)
    (h : variableAt before text = some (name, n)) : n ≤ text.length := by
  unfold variableAt at h
  split at h
  · cases h
  · obtain ⟨word, -, h⟩ := List.exists_of_findSome?_eq_some h
    simp only [bind, Option.bind_eq_some_iff] at h
    obtain ⟨_, -, _, -, ⟨_, _⟩, -, h⟩ := h
    split at h
    · obtain ⟨_, -, h⟩ := Option.bind_eq_some_iff.1 h
      obtain ⟨-, rfl⟩ := Prod.mk.inj (Option.some.inj h)
      exact Nat.sub_le _ _
    · cases h

theorem firstBalanced_bounds {lexer : Lexer} {stop count found : Nat}
    (h : lexer.firstBalanced stop count = some found) : stop ≤ found ∧ found < stop + count := by
  induction count generalizing lexer stop with
  | zero => cases h
  | succ count ih =>
      unfold Lexer.firstBalanced at h
      simp only at h
      split at h
      · cases h
      · split at h
        · obtain rfl := Option.some.inj h
          omega
        · obtain ⟨hle, hlt⟩ := ih h
          omega

theorem matchingBraceEnd_bounds {text : Text} {pos found : Nat}
    (h : matchingBraceEnd text pos = some found) : pos ≤ found ∧ found ≤ text.length := by
  unfold matchingBraceEnd at h
  split at h
  · cases h
  · next brace hbrace =>
      obtain ⟨hpos, -⟩ := Text.findFrom?_bounds hbrace
      unfold findBalancedEnd at h
      obtain ⟨hle, hlt⟩ := firstBalanced_bounds h
      omega

theorem functionEnd_bounds (text : Text) {pos : Nat} (hpos : pos ≤ text.length) :
    pos ≤ functionEnd text pos ∧ functionEnd text pos ≤ text.length := by
  unfold functionEnd
  cases hmatching : matchingBraceEnd text pos with
  | none => exact ⟨hpos, le_refl _⟩
  | some found => exact matchingBraceEnd_bounds hmatching

theorem variableEnd_bounds (text : Text) {pos : Nat} (hpos : pos ≤ text.length) :
    pos ≤ variableEnd text pos ∧ variableEnd text pos ≤ text.length := by
  have hstatement {stop : Nat} (h : statementEnd? text pos = some stop) :
      pos ≤ stop ∧ stop ≤ text.length := by
    obtain ⟨inside, hinside, rfl⟩ := Option.map_eq_some_iff.1 h
    obtain ⟨hlength, -⟩ := List.findIdx?_eq_some_iff_getElem.1 hinside
    rw [List.length_drop] at hlength
    omega
  unfold variableEnd
  split
  · next stop hstop _ => exact hstatement hstop
  · next stop brace hstop _ =>
      split
      · exact hstatement hstop
      · exact functionEnd_bounds text hpos
  · exact functionEnd_bounds text hpos

theorem candidate_placed {recognise : Text.Recogniser String} {text : Text}
    (hrecognise : ∀ before text value n, recognise before text = some (value, n) → n ≤ text.length)
    {found : Text.Found String} (hfound : found ∈ Text.findAll recognise text) {stop : Nat}
    (hstop : found.stop ≤ text.length → found.stop ≤ stop ∧ stop ≤ text.length) :
    (candidate text found stop).Placed text.length := by
  obtain ⟨-, hstart, hlength⟩ := Text.findAllFrom_bounds hrecognise hfound
  rw [Nat.zero_add] at hlength
  obtain ⟨hle, hlimit⟩ := hstop hlength
  have hdoc := docCommentStart_le text found.start
  simp only [Candidate.Placed, candidate]
  exact ⟨hdoc.trans (hstart.trans hle), hlimit⟩

theorem candidates_placed {text : Text} {c : Candidate} (hc : c ∈ candidates text) :
    c.Placed text.length := by
  unfold candidates at hc
  rw [List.mem_append, List.mem_map, List.mem_map] at hc
  rcases hc with ⟨found, hfound, rfl⟩ | ⟨found, hfound, rfl⟩
  · exact candidate_placed functionAt_le hfound (functionEnd_bounds text)
  · exact candidate_placed variableAt_le hfound (variableEnd_bounds text)

end PatternScan

/-! ## Candidates of a tree -/

namespace Script

/-- A tree that lies between two offsets, and each of its nodes within the one above it. -/
inductive Tree.Within : Nat → Nat → Tree → Prop where
  | node {label : Label} {children : List Tree} {low high : Nat} : low ≤ label.start →
      label.start ≤ label.stop → label.stop ≤ high →
      (∀ child ∈ children, Within label.start label.stop child) → Within low high (.node label children)

namespace Tree.Within

variable {t inner : Tree} {low high : Nat}

theorem bounds (h : t.Within low high) : low ≤ t.start ∧ t.start ≤ t.stop ∧ t.stop ≤ high := by
  cases h with
  | node hlow hspan hhigh _ => exact ⟨hlow, hspan, hhigh⟩

theorem child (h : t.Within low high) (hinner : inner ∈ t.children) : inner.Within t.start t.stop := by
  cases h with
  | node _ _ _ hchildren => exact hchildren inner hinner

theorem mono {low' high' : Nat} (h : t.Within low high) (hlow : low' ≤ low) (hhigh : high ≤ high') :
    t.Within low' high' := by
  cases h with
  | node hstart hspan hstop hchildren =>
      exact .node (hlow.trans hstart) hspan (hstop.trans hhigh) hchildren

theorem child? (h : t.Within low high) {role : Role} (hinner : t.child? role = some inner) :
    inner.Within t.start t.stop :=
  h.child (List.mem_of_find?_eq_some hinner)

end Tree.Within

end Script

open Script

namespace TopLevel

theorem bodyEnd_bounds {function : Tree} {low high : Nat} (h : function.Within low high) :
    function.start ≤ bodyEnd function ∧ bodyEnd function ≤ high := by
  obtain ⟨-, hspan, hhigh⟩ := h.bounds
  unfold bodyEnd
  cases hbody : function.child? .body with
  | none => exact ⟨hspan, hhigh⟩
  | some body =>
      obtain ⟨hstart, hbodySpan, hstop⟩ := (h.child? hbody).bounds
      exact ⟨hstart.trans hbodySpan, hstop.trans hhigh⟩

def Declared.Placed (limit : Nat) (d : Declared) : Prop :=
  d.start ≤ d.stop ∧ d.stop ≤ limit

theorem functionsOf_placed {statement : Tree} {low high : Nat} (h : statement.Within low high)
    {exported : Bool} {d : Declared} (hd : d ∈ functionsOf statement exported) : d.Placed high := by
  obtain ⟨-, hspan, hhigh⟩ := h.bounds
  unfold functionsOf at hd
  split at hd
  case h_1 | h_2 =>
    obtain rfl := List.mem_singleton.1 hd
    exact bodyEnd_bounds h
  case h_3 | h_4 =>
    obtain ⟨declarator, hdeclarator, hd⟩ := List.mem_filterMap.1 hd
    have hinner := h.child (List.mem_filter.1 hdeclarator).1
    simp only [bind, Option.bind_eq_some_iff] at hd
    obtain ⟨name, -, value, hvalue, hd⟩ := hd
    split at hd
    · cases hd
    · split at hd
      · obtain rfl := Option.some.inj hd
        exact ⟨hspan, hhigh⟩
      · obtain rfl := Option.some.inj hd
        have hwithin := hinner.child? hvalue
        obtain ⟨hstart, hend⟩ := bodyEnd_bounds hwithin
        exact ⟨hwithin.bounds.1.trans hstart, hend.trans (hinner.bounds.2.2.trans hhigh)⟩
  case h_5 => cases hd

theorem functions_placed {statement : Tree} {low high : Nat} (h : statement.Within low high)
    {d : Declared} (hd : d ∈ functions statement) : d.Placed high := by
  obtain ⟨-, hspan, hhigh⟩ := h.bounds
  unfold functions at hd
  split at hd
  · simp only at hd
    split at hd
    · split at hd
      · split at hd
        · obtain rfl := List.mem_singleton.1 hd
          exact ⟨hspan, hhigh⟩
        · cases hd
      · cases hd
    · split at hd
      · next inner hinner =>
          have hplaced := functionsOf_placed (h.child? hinner) hd
          exact ⟨hplaced.1, hplaced.2.trans hhigh⟩
      · cases hd
  · exact functionsOf_placed h hd

end TopLevel

/-- What is assumed of a tree: its nodes lie within the text, and each within the one above it. -/
def Script.Tree.Placed (text : Text) (program : Tree) : Prop :=
  program.Within 0 text.length

theorem Candidate.ofProgram_placed {reader : Reader} {text : Text} {program : Tree}
    (h : program.Placed text) {closureCalls : Bool} {c : Candidate}
    (hc : c ∈ Candidate.ofProgram reader text program closureCalls) : c.Placed text.length := by
  obtain ⟨d, hd, rfl⟩ := List.mem_map.1 hc
  obtain ⟨statement, hstatement, hd⟩ := List.mem_flatMap.1 hd
  obtain ⟨hspan, hlimit⟩ := TopLevel.functions_placed (h.child hstatement) hd
  have hstop : d.stop ≤ text.length := hlimit.trans h.bounds.2.2
  have hdoc := docCommentStart_le text d.start
  obtain ⟨hend, hlength⟩ := validateEnd_bounds text ((docCommentStart text d.start).getD d.start)
    hstop (some reader.isProgram)
  simp only [Candidate.Placed, Candidate.ofDeclared]
  exact ⟨hdoc.trans (hspan.trans hend), hlength⟩

theorem Candidate.ofText_placed {reader : Reader} {text : Text} {program : Option Tree}
    (h : ∀ tree ∈ program, tree.Placed text) {closureCalls : Bool} {c : Candidate}
    (hc : c ∈ Candidate.ofText reader text program closureCalls) : c.Placed text.length := by
  cases program with
  | none => exact PatternScan.candidates_placed hc
  | some tree => exact Candidate.ofProgram_placed (h tree rfl) hc

/-! ## Which candidates are kept -/

namespace Candidate

def Rises (a b : Candidate) : Prop :=
  a.start < b.start ∧ a.stop < b.stop

theorem rises_of_before {kept c : Candidate} (hbefore : before kept c = true)
    (hcovers : kept.covers c = false) : kept.Rises c := by
  unfold before at hbefore
  simp only [covers, Bool.and_eq_false_iff, decide_eq_false_iff_not] at hcovers
  unfold Rises
  split at hbefore
  · simp only [decide_eq_true_eq] at hbefore
    omega
  · simp only [decide_eq_true_eq] at hbefore
    omega

theorem keepOuter_sublist (kept candidates : List Candidate) :
    (keepOuter kept candidates).Sublist candidates := by
  induction candidates generalizing kept with
  | nil => exact List.Sublist.refl _
  | cons c rest ih =>
      unfold keepOuter
      split
      · exact (ih kept).trans (List.sublist_cons_self c rest)
      · exact (ih (c :: kept)).cons_cons c

/-- What is kept later rises above all that was kept before it. -/
theorem keepOuter_rises {kept candidates : List Candidate}
    (hsorted : candidates.Pairwise fun a b => before a b = true)
    (hkept : ∀ k ∈ kept, ∀ c ∈ candidates, before k c = true) :
    (∀ k ∈ kept, ∀ c ∈ keepOuter kept candidates, k.Rises c) ∧
      (keepOuter kept candidates).Pairwise Rises := by
  induction candidates generalizing kept with
  | nil => exact ⟨fun _ _ _ hc => (by cases hc), List.Pairwise.nil⟩
  | cons c rest ih =>
      obtain ⟨hfirst, hrest⟩ := List.pairwise_cons.1 hsorted
      unfold keepOuter
      split
      · exact ih hrest fun k hk other hother => hkept k hk other (List.mem_cons_of_mem _ hother)
      · next huncovered =>
          have hbelow : ∀ k ∈ c :: kept, ∀ other ∈ rest, before k other = true := by
            intro k hk other hother
            rcases List.mem_cons.1 hk with rfl | hk
            · exact hfirst other hother
            · exact hkept k hk other (List.mem_cons_of_mem _ hother)
          obtain ⟨habove, hpairwise⟩ := ih hrest hbelow
          have hrises (k : Candidate) (hk : k ∈ kept) : k.Rises c := by
            refine rises_of_before (hkept k hk c List.mem_cons_self) ?_
            by_contra hcovers
            exact huncovered (List.any_eq_true.2 ⟨k, hk, Bool.eq_true_of_not_eq_false hcovers⟩)
          refine ⟨fun k hk other hother => ?_, List.pairwise_cons.2
            ⟨fun other hother => habove c List.mem_cons_self other hother, hpairwise⟩⟩
          rcases List.mem_cons.1 hother with rfl | hother
          · exact hrises k hk
          · exact habove k (List.mem_cons_of_mem _ hk) other hother

theorem before_sorted (candidates : List Candidate) :
    (candidates.mergeSort before).Pairwise fun a b => before a b = true := by
  apply List.pairwise_mergeSort
  · intro a b c hab hbc
    unfold before at *
    split at hab <;> split at hbc <;> simp only [decide_eq_true_eq] at hab hbc <;> split <;>
      simp only [decide_eq_true_eq] <;> omega
  · intro a b
    unfold before
    rw [Bool.or_eq_true]
    split <;> split <;> simp only [decide_eq_true_eq] <;> omega

theorem dedupe_rises (candidates : List Candidate) : (dedupe candidates).Pairwise Rises :=
  (keepOuter_rises (before_sorted candidates) (by simp)).2

theorem mem_of_mem_dedupe {candidates : List Candidate} {c : Candidate} (hc : c ∈ dedupe candidates) :
    c ∈ candidates :=
  (List.mergeSort_perm candidates before).mem_iff.1 ((keepOuter_sublist _ _).mem hc)

theorem dedupe_eq_nil {candidates : List Candidate} : dedupe candidates = [] ↔ candidates = [] := by
  constructor
  · intro hnone
    have hperm := List.mergeSort_perm candidates before
    unfold dedupe at hnone
    cases hsorted : candidates.mergeSort before with
    | nil =>
        rw [hsorted] at hperm
        exact hperm.nil_eq.symm
    | cons c rest =>
        rw [hsorted] at hnone
        simp [keepOuter] at hnone
  · rintro rfl
    simp [dedupe, keepOuter]

end Candidate

end ScriptSplit
