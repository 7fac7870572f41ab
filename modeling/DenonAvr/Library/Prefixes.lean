import Mathlib.Tactic

/-!
# Answers that more input does not change

A question asked again each time more input has arrived. When an answer, once given, is the answer for every longer
input too (`Persistent`), it does not matter in which pieces the input came (`readUntil_eq_of_flatten_eq`).

The position of a pattern is such an answer (`find_append`).
-/

namespace DenonAvr.Library

variable {α β : Type*}

/-! ### The position of a pattern -/

section Find
variable [DecidableEq α] {pattern xs ys : List α} {i : ℕ}

/-- Where the pattern occurs first. -/
def find (pattern : List α) : List α → Option ℕ
  | [] => none
  | a :: rest => if pattern.isPrefixOf (a :: rest) then some 0 else (find pattern rest).map (· + 1)

theorem find_cons (pattern : List α) (a : α) (rest : List α) :
    find pattern (a :: rest) =
      if pattern.isPrefixOf (a :: rest) then some 0 else (find pattern rest).map (· + 1) := rfl

theorem find_le (h : find pattern xs = some i) : i + pattern.length ≤ xs.length := by
  induction xs generalizing i with
  | nil => cases h
  | cons a xs ih =>
    rw [find_cons] at h
    split_ifs at h with hprefix
    · cases h
      simpa using (List.isPrefixOf_iff_prefix.mp hprefix).length_le
    · obtain ⟨j, hj, rfl⟩ := Option.map_eq_some_iff.mp h
      have hle := ih hj
      simp only [List.length_cons]
      omega

theorem find_append (h : find pattern xs = some i) (ys : List α) : find pattern (xs ++ ys) = some i := by
  induction xs generalizing i with
  | nil => cases h
  | cons a xs ih =>
    rw [List.cons_append]
    have hfits := find_le h
    -- what the pattern is compared with is there already
    have hsame : pattern.isPrefixOf (a :: (xs ++ ys)) = pattern.isPrefixOf (a :: xs) := by
      rw [Bool.eq_iff_iff, List.isPrefixOf_iff_prefix, List.isPrefixOf_iff_prefix]
      constructor
      · intro hlonger
        exact List.prefix_of_prefix_length_le hlonger (List.prefix_append (a :: xs) ys) (by omega)
      · intro hprefix
        exact hprefix.trans (List.prefix_append (a :: xs) ys)
    rw [find_cons] at h ⊢
    rw [hsame]
    split_ifs at h ⊢ with hprefix
    · exact h
    · obtain ⟨j, hj, rfl⟩ := Option.map_eq_some_iff.mp h
      rw [ih hj]
      rfl

/-- What follows a piece of input without the pattern. -/
theorem find_append_of_apart {before : List α}
    (h : ∀ head tail, before = head ++ tail → tail ≠ [] → pattern.isPrefixOf (tail ++ xs) = false) :
    find pattern (before ++ xs) = (find pattern xs).map (· + before.length) := by
  induction before with
  | nil => simp
  | cons a before ih =>
    rw [List.cons_append, find_cons]
    rw [show pattern.isPrefixOf (a :: (before ++ xs)) = false from h [] (a :: before) rfl (by simp)]
    rw [ih fun head tail heq hne => h (a :: head) tail (by rw [heq]; rfl) hne]
    simp [Option.map_map, Function.comp_def, Nat.add_assoc]

end Find

/-! ### Reading until there is an answer -/

/-- An answer that stays when more input has arrived. -/
def Persistent (answer : List α → Option β) : Prop := ∀ {xs b}, answer xs = some b → ∀ ys, answer (xs ++ ys) = some b

/-- Each piece is put behind what was read, until there is an answer, or at the end of the input. -/
def readUntil (answer : List α → Option β) (finish : List α → β) (buffer : List α) : List (List α) → β
  | [] => finish buffer
  | piece :: pieces =>
    match answer (buffer ++ piece) with
    | some b => b
    | none => readUntil answer finish (buffer ++ piece) pieces

section Reading
variable {answer : List α → Option β} {finish : List α → β} {buffer : List α} {piece : List α} {pieces : List (List α)}

/-- The answer is that for the whole input. -/
theorem readUntil_cons (h : Persistent answer) :
    readUntil answer finish buffer (piece :: pieces) =
      (answer (buffer ++ (piece :: pieces).flatten)).getD (finish (buffer ++ (piece :: pieces).flatten)) := by
  induction pieces generalizing buffer piece with
  | nil =>
    rw [List.flatten_cons, List.flatten_nil, List.append_nil]
    unfold readUntil
    cases answer (buffer ++ piece) <;> rfl
  | cons next pieces ih =>
    rw [List.flatten_cons, ← List.append_assoc]
    unfold readUntil
    cases hanswer : answer (buffer ++ piece) with
    | some b =>
      rw [h hanswer]
      rfl
    | none => exact ih

/-- The same input in other pieces. -/
theorem readUntil_eq_of_flatten_eq (h : Persistent answer) {pieces' : List (List α)} (hpieces : ∀ piece ∈ pieces, piece ≠ [])
    (hpieces' : ∀ piece ∈ pieces', piece ≠ []) (hsame : pieces.flatten = pieces'.flatten) :
    readUntil answer finish buffer pieces = readUntil answer finish buffer pieces' := by
  have hnil : ∀ {pieces : List (List α)}, (∀ piece ∈ pieces, piece ≠ []) → pieces.flatten = [] → pieces = [] := by
    intro pieces hne hflat
    cases pieces with
    | nil => rfl
    | cons piece pieces =>
      rw [List.flatten_cons, List.append_eq_nil_iff] at hflat
      exact absurd hflat.1 (hne piece List.mem_cons_self)
  cases pieces with
  | nil => rw [hnil hpieces' hsame.symm]
  | cons piece pieces =>
    cases pieces' with
    | nil => rw [hnil hpieces hsame]
    | cons piece' pieces' => rw [readUntil_cons h, readUntil_cons h, hsame]

end Reading

end DenonAvr.Library
