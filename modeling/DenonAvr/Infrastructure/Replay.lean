import DenonAvr.Infrastructure.AuditLine

/-!
# The ledger from the log's lines

A record read back from its line differs from the record that was written in the length of its texts only. `rebuild`
looks at none of them, so the ledger of a later run is the one the records themselves describe.
-/

namespace DenonAvr.Infrastructure

open Domain Application Library

section Bounded
variable (record : AuditRecord) (records : List AuditRecord) (now : WallTime)

theorem key?_boundedRecord : (boundedRecord record).key? = record.key? := rfl

theorem notDispatched?_boundedRecord : (boundedRecord record).notDispatched? = record.notDispatched? := by
  obtain ⟨schema, run, time, operation, principal, receiver, event⟩ := record
  cases event with
  | finished status dispatch confirmed reason => cases dispatch <;> rfl
  | _ => rfl

theorem volumeChange?_boundedRecord : (boundedRecord record).volumeChange? = record.volumeChange? := by
  obtain ⟨schema, run, time, operation, principal, receiver, event⟩ := record
  cases event with
  | dispatching intent before target preconditionFields => cases target <;> cases receiver <;> rfl
  | _ => rfl

theorem ledgerEntry_boundedRecord (notDispatched : List OpKey) :
    (boundedRecord record).ledgerEntry notDispatched = record.ledgerEntry notDispatched := by
  unfold AuditRecord.ledgerEntry
  rw [volumeChange?_boundedRecord, key?_boundedRecord]
  rfl

/-- The texts of the records count for nothing. -/
theorem rebuild_boundedRecord : Ledger.rebuild (records.map boundedRecord) now = Ledger.rebuild records now := by
  have hnot : (records.map boundedRecord).filterMap AuditRecord.notDispatched? =
      records.filterMap AuditRecord.notDispatched? := by
    rw [List.filterMap_map]
    exact List.filterMap_congr fun record _ => notDispatched?_boundedRecord record
  have hentries : ∀ notDispatched, (records.map boundedRecord).filterMap (AuditRecord.ledgerEntry notDispatched) =
      records.filterMap (AuditRecord.ledgerEntry notDispatched) := by
    intro notDispatched
    rw [List.filterMap_map]
    exact List.filterMap_congr fun record _ => ledgerEntry_boundedRecord record notDispatched
  unfold Ledger.rebuild
  simp only [hnot, hentries]

end Bounded

section Lines
variable {json : JsonText} {lines : List (ℕ × AuditRecord)}

theorem decoded_lines (hjson : json.Lawful IsRecord) (hfits : ∀ line ∈ lines, recordFits line.2 = true) :
    (lines.map fun line => encode json line.1 line.2).map (decodeLine json) =
      lines.map fun line => some ⟨line.1, some (boundedRecord line.2)⟩ := by
  rw [List.map_map]
  exact List.map_congr_left fun line hline => decodeLine_encode hjson (hfits line hline)

theorem records_decoded (hjson : json.Lawful IsRecord) (hfits : ∀ line ∈ lines, recordFits line.2 = true) :
    ((lines.map fun line => encode json line.1 line.2).filterMap (decodeLine json)).filterMap Decoded.record =
      (lines.map Prod.snd).map boundedRecord := by
  rw [List.filterMap_map, List.filterMap_filterMap, List.map_map, ← List.filterMap_eq_map]
  refine List.filterMap_congr fun line hline => ?_
  rw [Function.comp_apply, decodeLine_encode hjson (hfits line hline)]
  rfl

/-- **The audit log's lines carry its records.** Each line is read back as the number and the record it was written
from, the record's texts cut to their limits, and the ledger rebuilt from what was read is the ledger rebuilt from the
records. -/
theorem rebuild_decoded (hjson : json.Lawful IsRecord) (hfits : ∀ line ∈ lines, recordFits line.2 = true)
    (now : WallTime) :
    ((lines.map fun line => encode json line.1 line.2).map (decodeLine json) =
        lines.map fun line => some ⟨line.1, some (boundedRecord line.2)⟩) ∧
      Ledger.rebuild
          (((lines.map fun line => encode json line.1 line.2).filterMap (decodeLine json)).filterMap Decoded.record) now =
        Ledger.rebuild (lines.map Prod.snd) now := by
  refine ⟨decoded_lines hjson hfits, ?_⟩
  rw [records_decoded hjson hfits, rebuild_boundedRecord]

end Lines

section Example

/-- The id of a receiver chosen by its address. -/
def addressedReceiver : ReceiverId := ⟨"adhoc:192.0.2.10", by decide⟩

/-- A volume write that was about to be made, and its end. -/
def volumeLines : List (ℕ × AuditRecord) :=
  [(7, { run := 1, time := 2, operation := some 3, principal := some .operator, receiver := some addressedReceiver,
          event := .dispatching "volume -35.0" (some (-80)) (some (-70)) [.volume] }),
    (8, { run := 1, time := 4, operation := some 3, principal := some .operator, receiver := some addressedReceiver,
          event := .finished "succeeded" .completeWrite true none })]

theorem rebuild_decoded_volumeLines :
    ((volumeLines.map fun line => encode Json.canonical line.1 line.2).map (decodeLine Json.canonical) =
        volumeLines.map fun line => some ⟨line.1, some (boundedRecord line.2)⟩) ∧
      Ledger.rebuild (((volumeLines.map fun line => encode Json.canonical line.1 line.2).filterMap
          (decodeLine Json.canonical)).filterMap Decoded.record) 5 =
        Ledger.rebuild (volumeLines.map Prod.snd) 5 :=
  rebuild_decoded (Json.canonical_lawful IsRecord) (by decide) 5

end Example

end DenonAvr.Infrastructure
