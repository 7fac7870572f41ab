import Mathlib.Tactic
import Mathlib.Data.List.AList

/-!
# Counting parties

A list of parties, each in some state, and how many of them have a property. One party takes a step at a time
(`List.set`), and new ones are added at the end. A counter that follows what each step does to the one party agrees with
the count (`countP_set_append`), and a property that one party has at most singles it out (`eq_of_countP_le_one`).
Parties that have names are in a table, where a step of one is an insertion under its name (`countP_insert`).
-/

namespace DenonAvr.Library.Tally

variable {α : Type*} {p : α → Bool} {parties more : List α} {a b : α} {i j : ℕ}

/-- What a party counts for. -/
def weight (p : α → Bool) (a : α) : ℕ := if p a then 1 else 0

theorem weight_of_true (h : p a = true) : weight p a = 1 := if_pos h

theorem weight_of_false (h : p a = false) : weight p a = 0 := if_neg (by simp [h])

theorem weight_mono (h : p a = true → p b = true) : weight p a ≤ weight p b := by
  by_cases ha : p a = true
  · rw [weight_of_true ha, weight_of_true (h ha)]
  · rw [weight_of_false (Bool.eq_false_iff.mpr ha)]
    exact Nat.zero_le _

/-- **One party takes a step.** -/
theorem countP_set_append (p : α → Bool) (b : α) (more : List α) (h : parties[i]? = some a) :
    (parties.set i b ++ more).countP p + weight p a = parties.countP p + weight p b + more.countP p := by
  obtain ⟨hlt, ha⟩ := List.getElem?_eq_some_iff.mp h
  have hle : weight p a ≤ parties.countP p := by
    unfold weight
    split_ifs with hp
    · exact List.countP_pos_iff.mpr ⟨a, List.mem_of_getElem? h, hp⟩
    · exact Nat.zero_le _
  rw [List.countP_append, List.countP_set hlt, ha]
  unfold weight at *
  omega

theorem countP_append_singleton : (parties ++ [a]).countP p = parties.countP p + weight p a := by
  rw [List.countP_append, List.countP_singleton]
  rfl

theorem countP_pos_of_getElem? (h : parties[i]? = some a) (ha : p a = true) : 0 < parties.countP p :=
  List.countP_pos_iff.mpr ⟨a, List.mem_of_getElem? h, ha⟩

/-- A property that one party has at most. -/
theorem eq_of_countP_le_one (hcount : parties.countP p ≤ 1) (ha : a ∈ parties) (hb : b ∈ parties) (hpa : p a = true)
    (hpb : p b = true) : a = b := by
  induction parties with
  | nil => cases ha
  | cons c parties ih =>
    rw [List.countP_cons] at hcount
    have hnone : ∀ d ∈ parties, p d = true → p c = false := by
      intro d hd hpd
      have hpos : 0 < parties.countP p := List.countP_pos_iff.mpr ⟨d, hd, hpd⟩
      by_contra hpc
      rw [if_pos (by simpa using hpc)] at hcount
      omega
    obtain rfl | hatail := List.mem_cons.mp ha
    · obtain rfl | hbtail := List.mem_cons.mp hb
      · rfl
      · rw [hnone b hbtail hpb] at hpa
        cases hpa
    · obtain rfl | hbtail := List.mem_cons.mp hb
      · rw [hnone a hatail hpa] at hpb
        cases hpb
      · exact ih (by omega) hatail hbtail

/-- A party after one of them took a step. -/
theorem mem_set_append (h : a ∈ parties.set i b ++ more) : a = b ∨ a ∈ parties ∨ a ∈ more := by
  rcases List.mem_append.mp h with h | h
  · exact (List.mem_or_eq_of_mem_set h).symm.imp_right .inl
  · exact .inr (.inr h)

theorem mem_set_append_self (h : parties[i]? = some a) : b ∈ parties.set i b ++ more :=
  List.mem_append_left _ (List.mem_set (List.getElem?_eq_some_iff.mp h).1 b)

/-- The other parties stay as they are. -/
theorem mem_set_append_of_ne {c : α} (h : parties[i]? = some a) (hc : c ∈ parties) (hne : c ≠ a) :
    c ∈ parties.set i b ++ more := by
  obtain ⟨j, hj⟩ := List.mem_iff_getElem?.mp hc
  have hij : i ≠ j := by
    rintro rfl
    exact hne (Option.some.inj (hj.symm.trans h))
  refine List.mem_append_left _ (List.mem_iff_getElem?.mpr ⟨j, ?_⟩)
  rw [List.getElem?_set_ne hij, hj]

theorem mem_set_of_ne {c : α} (h : parties[i]? = some a) (hc : c ∈ parties) (hne : c ≠ a) (b : α) :
    c ∈ parties.set i b := by
  have hmem : c ∈ parties.set i b ++ [] := mem_set_append_of_ne h hc hne
  rwa [List.append_nil] at hmem

theorem mem_eraseIdx_of_ne {c : α} (h : parties[i]? = some a) (hc : c ∈ parties) (hne : c ≠ a) :
    c ∈ parties.eraseIdx i := by
  obtain ⟨j, hj⟩ := List.mem_iff_getElem?.mp hc
  refine List.mem_eraseIdx_iff_getElem?.mpr ⟨j, ?_, hj⟩
  rintro rfl
  exact hne (Option.some.inj (hj.symm.trans h))

/-- The same, of one that would stay if the party ended otherwise. -/
theorem mem_set_append_of_mem_set {c d : α} (hc : c ∈ parties.set i d) (hne : c ≠ d) :
    c ∈ parties.set i b ++ more := by
  obtain ⟨j, hj⟩ := List.mem_iff_getElem?.mp hc
  have hij : i ≠ j := by
    rintro rfl
    rw [List.getElem?_set_self'] at hj
    obtain ⟨old, -, heq⟩ := Option.map_eq_some_iff.mp hj
    exact hne heq.symm
  refine List.mem_append_left _ (List.mem_iff_getElem?.mpr ⟨j, ?_⟩)
  rw [List.getElem?_set_ne hij] at hj ⊢
  exact hj

/-! ### Parties with names -/

section Table
variable {κ β : Type*} [DecidableEq κ] {table : AList fun _ : κ => β} {name : κ} {b b' : β}

/-- Where a party with a name is. -/
theorem exists_split (h : table.lookup name = some b) :
    ∃ before after, table.entries = before ++ ⟨name, b⟩ :: after ∧ table.entries.kerase name = before ++ after := by
  have hmem : name ∈ table.entries.keys := AList.mem_keys.mp (AList.lookup_isSome.mp (by rw [h]; rfl))
  obtain ⟨found, before, after, -, heq, herase⟩ := List.exists_of_kerase hmem
  have hfound : table.lookup name = some found :=
    AList.mem_lookup_iff.mpr (heq ▸ List.mem_append_right _ List.mem_cons_self)
  obtain rfl := Option.some.inj (h.symm.trans hfound)
  exact ⟨before, after, heq, herase⟩

/-- Without one of them, there is one party less. -/
theorem countP_kerase (p : (Sigma fun _ : κ => β) → Bool) (h : table.lookup name = some b) :
    (table.entries.kerase name).countP p + weight p ⟨name, b⟩ = table.entries.countP p := by
  obtain ⟨before, after, heq, herase⟩ := exists_split h
  rw [herase, heq, List.countP_append, List.countP_append, List.countP_cons, add_assoc]
  rfl

/-- Without one of them, what they hold together is less by what it holds. -/
theorem sum_kerase (f : (Sigma fun _ : κ => β) → ℕ) (h : table.lookup name = some b) :
    ((table.entries.kerase name).map f).sum + f ⟨name, b⟩ = (table.entries.map f).sum := by
  obtain ⟨before, after, heq, herase⟩ := exists_split h
  rw [herase, heq]
  simp only [List.map_append, List.map_cons, List.sum_append, List.sum_cons]
  omega

/-- What one holds is replaced. -/
theorem sum_insert (f : (Sigma fun _ : κ => β) → ℕ) (b' : β) (h : table.lookup name = some b) :
    ((AList.insert name b' table).entries.map f).sum + f ⟨name, b⟩ = (table.entries.map f).sum + f ⟨name, b'⟩ := by
  have hwithout := sum_kerase f h
  rw [AList.entries_insert, List.map_cons, List.sum_cons]
  omega

/-- What a new party holds is added. -/
theorem sum_insert_new (f : (Sigma fun _ : κ => β) → ℕ) (b : β) (h : table.lookup name = none) :
    ((AList.insert name b table).entries.map f).sum = (table.entries.map f).sum + f ⟨name, b⟩ := by
  rw [AList.entries_insert_of_notMem (AList.lookup_eq_none.mp h), List.map_cons, List.sum_cons, add_comm]

/-- **A party with a name takes a step.** -/
theorem countP_insert (p : (Sigma fun _ : κ => β) → Bool) (b' : β) (h : table.lookup name = some b) :
    (AList.insert name b' table).entries.countP p + weight p ⟨name, b⟩ =
      table.entries.countP p + weight p ⟨name, b'⟩ := by
  have hwithout := countP_kerase p h
  have hinsert : (AList.insert name b' table).entries.countP p =
      (table.entries.kerase name).countP p + weight p ⟨name, b'⟩ := by
    rw [AList.entries_insert, List.countP_cons]
    rfl
  omega

/-- A party that may be new. -/
theorem countP_insert_le (p : (Sigma fun _ : κ => β) → Bool) (name : κ) (b : β) (table : AList fun _ : κ => β) :
    (AList.insert name b table).entries.countP p ≤ table.entries.countP p + weight p ⟨name, b⟩ := by
  rw [AList.entries_insert, List.countP_cons]
  exact Nat.add_le_add_right (List.kerase_sublist name table.entries).countP_le _

theorem countP_erase_le (p : (Sigma fun _ : κ => β) → Bool) (name : κ) :
    (table.erase name).entries.countP p ≤ table.entries.countP p :=
  (List.kerase_sublist name table.entries).countP_le

end Table

end DenonAvr.Library.Tally
