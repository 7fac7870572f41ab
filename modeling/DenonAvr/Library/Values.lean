import Mathlib.Data.List.AList

/-!
# The values of a map

A map with each of its values changed by a function (`mapValues`), and how that commutes with what one does with a map:
look up, insert, erase, search and count.
-/

namespace DenonAvr.Library

variable {α β γ : Type*}

/-- The map with each value changed. -/
def mapValues (f : β → γ) (s : AList fun _ : α => β) : AList fun _ : α => γ :=
  ⟨s.entries.map (Sigma.map id fun _ => f), s.nodupKeys.map₂ fun _ => f⟩

section
variable (f : β → γ) (s : AList fun _ : α => β)

theorem entries_mapValues : (mapValues f s).entries = s.entries.map (Sigma.map id fun _ => f) := rfl

@[simp] theorem length_mapValues : (mapValues f s).entries.length = s.entries.length := List.length_map _

theorem find?_mapValues (p : (Σ _ : α, γ) → Bool) :
    (mapValues f s).entries.find? p = (s.entries.find? fun item => p ⟨item.1, f item.2⟩).map (Sigma.map id fun _ => f) :=
  List.find?_map

theorem countP_mapValues (p : (Σ _ : α, γ) → Bool) :
    (mapValues f s).entries.countP p = s.entries.countP fun item => p ⟨item.1, f item.2⟩ :=
  List.countP_map

variable [DecidableEq α] (a : α) (b : β)

@[simp] theorem lookup_mapValues : (mapValues f s).lookup a = (s.lookup a).map f := List.dlookup_map₂ a

theorem mapValues_erase : mapValues f (s.erase a) = (mapValues f s).erase a := by
  refine AList.ext ?_
  show (List.kerase a s.entries).map _ = List.kerase a (s.entries.map _)
  unfold List.kerase
  rw [List.eraseP_map]
  rfl

theorem mapValues_insert : mapValues f (AList.insert a b s) = AList.insert a (f b) (mapValues f s) := by
  refine AList.ext ?_
  rw [AList.entries_insert, entries_mapValues, AList.entries_insert, List.map_cons]
  exact congrArg (List.cons _) (congrArg AList.entries (mapValues_erase f s a))

end

end DenonAvr.Library
