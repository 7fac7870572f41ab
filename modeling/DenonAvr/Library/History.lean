import Mathlib.Data.List.Infix

/-!
# Histories

What happened, in order. A history is `Justified` when each entry has its grounds in the entries before it: what was
answered had been asked, what was given back had been taken. A machine that appends to a history keeps it so if it gives
each new entry its grounds (`Justified.concat`), and leaves it so with entries that need none (`Justified.append`).

Some entries take on what others discharge. What was taken on and not discharged since is `Outstanding`, which is told from
the last entry and the history before it (`outstanding_concat`).
-/

namespace DenonAvr.Library

section History
variable {ε : Type*} {Grounds : List ε → ε → Prop} {log new : List ε} {entry : ε}

/-- Each entry has its grounds in those before it. -/
def Justified (Grounds : List ε → ε → Prop) (log : List ε) : Prop :=
  ∀ before entry, before ++ [entry] <+: log → Grounds before entry

theorem justified_nil : Justified Grounds [] := by
  intro before entry h
  have hlength := h.length_le
  simp at hlength

theorem Justified.concat (h : Justified Grounds log) (hentry : Grounds log entry) : Justified Grounds (log ++ [entry]) := by
  intro before other hbefore
  obtain heq | hbefore := List.prefix_concat_iff.mp hbefore
  · obtain ⟨rfl, hother⟩ := List.append_inj' heq rfl
    obtain rfl := List.singleton_inj.mp hother
    exact hentry
  · exact h before other hbefore

/-- Entries that need no grounds. -/
theorem Justified.append (h : Justified Grounds log) (hnew : ∀ entry ∈ new, ∀ before, Grounds before entry) :
    Justified Grounds (log ++ new) := by
  induction new generalizing log with
  | nil => rwa [List.append_nil]
  | cons entry rest ih =>
    rw [← List.singleton_append, ← List.append_assoc]
    refine ih (h.concat (hnew entry List.mem_cons_self log)) fun other hother => ?_
    exact hnew other (List.mem_cons_of_mem _ hother)

theorem Justified.of_prefix {before : List ε} (h : Justified Grounds log) (hbefore : before <+: log) :
    Justified Grounds before := fun earlier entry hearlier => h earlier entry (hearlier.trans hbefore)

theorem Justified.grounds (h : Justified Grounds log) (hmem : entry ∈ log) : ∃ before, before <+: log ∧ Grounds before entry := by
  obtain ⟨before, after, rfl⟩ := List.append_of_mem hmem
  refine ⟨before, List.prefix_append _ _, h before entry ?_⟩
  exact ⟨after, by rw [List.append_assoc, List.singleton_append]⟩

/-- Where a key occurs once, one entry has it. -/
theorem eq_of_nodup_filterMap {κ : Type*} {key : ε → Option κ} {a b : ε} {k : κ} (h : (log.filterMap key).Nodup)
    (ha : a ∈ log) (hb : b ∈ log) (hka : key a = some k) (hkb : key b = some k) : a = b := by
  induction log with
  | nil => exact absurd ha List.not_mem_nil
  | cons entry rest ih =>
    -- a key that the first entry has is none of the others'
    have hfirst : ∀ other ∈ rest, key entry = some k → key other ≠ some k := by
      intro other hother hentry hkey
      rw [List.filterMap_cons_some hentry] at h
      exact (List.nodup_cons.mp h).1 (List.mem_filterMap.mpr ⟨other, hother, hkey⟩)
    have hrest : (rest.filterMap key).Nodup := by
      cases hentry : key entry with
      | none => rwa [List.filterMap_cons_none hentry] at h
      | some k' =>
        rw [List.filterMap_cons_some hentry] at h
        exact (List.nodup_cons.mp h).2
    obtain heqa | ha := List.mem_cons.mp ha
    · obtain heqb | hb := List.mem_cons.mp hb
      · exact heqa.trans heqb.symm
      · exact absurd hkb (hfirst b hb (heqa ▸ hka))
    · obtain heqb | hb := List.mem_cons.mp hb
      · exact absurd hka (hfirst a ha (heqb ▸ hkb))
      · exact ih hrest ha hb

end History

section Outstanding
variable {ε : Type*} {incurs discharges : ε → Prop} {log : List ε} {entry : ε}

/-- There is an entry that incurs, and none after it that discharges. -/
def Outstanding (incurs discharges : ε → Prop) (log : List ε) : Prop :=
  ∃ before entry after, log = before ++ entry :: after ∧ incurs entry ∧ ∀ later ∈ after, ¬ discharges later

theorem not_outstanding_nil : ¬ Outstanding incurs discharges [] := by
  rintro ⟨before, entry, after, h, -⟩
  simp at h

theorem outstanding_concat :
    Outstanding incurs discharges (log ++ [entry]) ↔
      incurs entry ∨ Outstanding incurs discharges log ∧ ¬ discharges entry := by
  constructor
  · rintro ⟨before, first, after, heq, hincurs, hafter⟩
    rcases List.eq_nil_or_concat after with rfl | ⟨after', last, rfl⟩
    · obtain ⟨-, hlast⟩ := List.append_inj' heq rfl
      exact .inl (List.singleton_inj.mp hlast ▸ hincurs)
    · rw [List.concat_eq_append, ← List.cons_append, ← List.append_assoc] at heq
      obtain ⟨hlog, hlast⟩ := List.append_inj' heq rfl
      rw [List.singleton_inj.mp hlast]
      refine .inr ⟨⟨before, first, after', hlog, hincurs, fun later hlater => ?_⟩, ?_⟩
      · exact hafter later (by simp [hlater])
      · exact hafter last (by simp)
  · rintro (hincurs | ⟨⟨before, first, after, rfl, hincurs, hafter⟩, hentry⟩)
    · exact ⟨log, entry, [], rfl, hincurs, fun _ h => absurd h List.not_mem_nil⟩
    · refine ⟨before, first, after ++ [entry], by simp, hincurs, fun later hlater => ?_⟩
      rcases List.mem_append.mp hlater with hlater | hlater
      · exact hafter later hlater
      · rw [List.mem_singleton.mp hlater]
        exact hentry

end Outstanding

end DenonAvr.Library
