import DenonAvr.Domain.State
import Mathlib.Data.Finset.Basic

/-!
# Synchronization debt

The fields of one receiver that are to be read again, and when. A debt is for one connection (`isFor`).
-/

namespace DenonAvr.Domain

structure SyncDebt where
  cycle : SyncCycleId
  receiver : ReceiverId
  epoch : Epoch
  fields : Finset CoreField
  causes : Finset SyncCause
  activitySeq : ℕ := 0
  quickReconcileAt : MonotonicMillis
  finalReconcileAt : Option MonotonicMillis := none
deriving DecidableEq

namespace SyncDebt

def new (receiver : ReceiverId) (epoch : Epoch) (cycle : SyncCycleId) (field : CoreField) (cause : SyncCause)
    (now : MonotonicMillis) : SyncDebt :=
  { cycle, receiver, epoch, fields := {field}, causes := {cause}, quickReconcileAt := now + 250 }

def merge (debt : SyncDebt) (fields : List CoreField) (cause : SyncCause) : SyncDebt :=
  { debt with fields := debt.fields ∪ fields.toFinset, causes := insert cause debt.causes }

def noteActivity (debt : SyncDebt) (now : MonotonicMillis) : SyncDebt :=
  { debt with activitySeq := min (debt.activitySeq + 1) (2 ^ 64 - 1), quickReconcileAt := now + 250 }

def deferFinalUntil (debt : SyncDebt) (time : MonotonicMillis) : SyncDebt :=
  { debt with finalReconcileAt := some (debt.finalReconcileAt.elim time fun current => max current time) }

def deferQuickUntil (debt : SyncDebt) (time : MonotonicMillis) : SyncDebt := { debt with quickReconcileAt := time }

def quickDue (debt : SyncDebt) (now : MonotonicMillis) : Bool := debt.quickReconcileAt ≤ now

def finalDue (debt : SyncDebt) (now : MonotonicMillis) : Bool := debt.finalReconcileAt.any fun deadline => deadline ≤ now

def isFor (debt : SyncDebt) (receiver : ReceiverId) (epoch : Epoch) : Bool :=
  debt.receiver == receiver && debt.epoch == epoch

def settleField (debt : SyncDebt) (field : CoreField) : SyncDebt := { debt with fields := debt.fields.erase field }

def settled (debt : SyncDebt) : Bool := debt.fields = ∅

/-- The fields in the order they are asked for. -/
def fieldList (debt : SyncDebt) : List CoreField := CoreField.all.filter (· ∈ debt.fields)

theorem mem_fieldList {debt : SyncDebt} {field : CoreField} : field ∈ debt.fieldList ↔ field ∈ debt.fields := by
  unfold fieldList
  simp [CoreField.mem_all]

end SyncDebt

end DenonAvr.Domain
