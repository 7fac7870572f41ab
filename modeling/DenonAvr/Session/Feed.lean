import DenonAvr.Domain.Precondition
import DenonAvr.Protocol.X3800h

/-!
# The feed

The published canonical state and what stamps every observation reduced into it: the epoch of the
connection and the sequence number of the line. `synchronizeGeneration` binds the feed to the generation the
transport shows, `applyEvent` folds in what the transport queued, `reduceLine` folds in one line.

What freshness is about is one field's last good value and validity (`Feed.fresh`). The lemmas say what each of
the feed's operations does to it: a mark does nothing, a lost connection makes it stale, and a line observes at
most the one field it is about, as it says and under the feed's own stamp (`fresh_reduceLine_of_accepted`).
-/

namespace DenonAvr.Session

open Domain Protocol

structure Feed where
  state : ReceiverState
  epoch : Epoch
  frameSeq : FrameSeq
deriving DecidableEq

/-- `AvrSessionEvent`. -/
inductive SessionEvent
  | connected
  | reconnected
  | line (text : String)
  /-- The generation is the one of the connection that failed. -/
  | disconnected (generation : ℕ) (message : String)
deriving DecidableEq, Repr

namespace Feed

/-- The feed of a fresh session: connection one is established, nothing is known. -/
def new (receiver : ReceiverId) : Feed :=
  { state := (ReceiverState.new receiver).establishEpoch 1, epoch := 1, frameSeq := 0 }

/-- Bind the feed to the connection the transport shows. -/
def synchronizeGeneration (feed : Feed) (generation : ℕ) : Feed :=
  let observed := generation + 1
  if observed = feed.epoch then feed
  else
    let state := if feed.state.epoch.isSome then feed.state.markDisconnected else feed.state
    { feed with state := state.establishEpoch observed, epoch := observed }

def validity : MonotonicMillis := 10000
def reconcileAfter : MonotonicMillis := 250

/-- The stamp of the line with sequence number `frameSeq`. -/
def stamp (feed : Feed) (now : MonotonicMillis) (inQuery : Bool) : ReceiverState.Stamp where
  receiver := feed.state.receiver
  epoch := feed.epoch
  frameSeq := feed.frameSeq + 1
  observedAt := now
  origin := if inQuery then .receiverFrameInQueryWindow (feed.frameSeq + 1) else .receiverFrame

/-- The state after one line, and the field it was about. -/
def reduceLineState (feed : Feed) (now : MonotonicMillis) (line : String) (inQuery : Bool) :
    ReceiverState × Option CoreField :=
  match parse line with
  | .error _ => (feed.state.recordDiagnostic s!"malformed: {line}", none)
  | .ok (.volumeLimit _) => (feed.state, none)
  | .ok parsed =>
    match coreFrame parsed with
    | none => (feed.state.recordDiagnostic line, none)
    | some frame =>
      let state := feed.state.reduce (feed.stamp now inQuery) (now + validity) frame
      let state :=
        if inQuery then state
        else state.markConverging frame.field (feed.frameSeq + 1) .receiverEvent (now + reconcileAfter)
      (state, some frame.field)

/-- Every line is sequenced before it is parsed. -/
def reduceLine (feed : Feed) (now : MonotonicMillis) (line : String) (inQuery : Bool) :
    Feed × Option CoreField :=
  let (state, field) := feed.reduceLineState now line inQuery
  ({ feed with state, frameSeq := feed.frameSeq + 1 }, field)

/-- Fold in an event of the transport. -/
def applyEvent (feed : Feed) (now : MonotonicMillis) : SessionEvent → Feed × Option CoreField
  | .line text => feed.reduceLine now text false
  | .disconnected generation _ =>
    -- Failure of an old connection must not make a newer epoch stale.
    if generation + 1 < feed.epoch then (feed, none)
    else ({ feed with state := feed.state.markDisconnected }, none)
  | .connected => (feed, none)
  | .reconnected =>
    let epoch := feed.epoch + 1
    ({ feed with state := feed.state.markDisconnected.establishEpoch epoch, epoch }, none)

def markConverging (feed : Feed) (field : CoreField) (cause : SyncCause) (cycle : SyncCycleId)
    (now : MonotonicMillis) : Feed :=
  { feed with state := feed.state.markConverging field cycle cause (now + reconcileAfter) }

def markSettled (feed : Feed) (field : CoreField) (cycle : SyncCycleId) (now : MonotonicMillis) : Feed :=
  { feed with state := feed.state.markSettled field cycle now }

def markQueryFailed (feed : Feed) (field : CoreField) (message : String) : Feed :=
  { feed with state := feed.state.markQueryFailed field message }

def expire (feed : Feed) (now : MonotonicMillis) : Feed :=
  { feed with state := feed.state.expireFields now }

/-! ### What happens to one field -/

/-- The last good value and the validity of a field: all that freshness is about. -/
def fresh (feed : Feed) (f : CoreField) : Option (Observation CoreFrame) × FieldValidity :=
  ((feed.state.fieldAt f).lastGood, (feed.state.fieldAt f).validity)

/-- The same after the connection was lost. -/
def lost (field : Option (Observation CoreFrame) × FieldValidity) : Option (Observation CoreFrame) × FieldValidity :=
  (field.1, if field.1.isSome then .stale .disconnected else field.2)

section Field
variable {feed : Feed} {f g : CoreField} {now : MonotonicMillis} {line : String} {inQuery : Bool}
  {generation : ℕ} {cycle : SyncCycleId} {cause : SyncCause} {frame : CoreFrame}

theorem fresh_mapField_sync (feed : Feed) (value : FieldSynchronization) :
    (({ feed with state := (feed.state.mapField g (FieldState.setSynchronization value)).bump } :
      Feed)).fresh f = feed.fresh f := by
  unfold fresh
  simp only [ReceiverState.fieldAt_bump]
  by_cases h : f = g
  · subst h
    rw [ReceiverState.fieldAt_mapField (ReceiverState.natural_setSynchronization _)]
    rfl
  · rw [ReceiverState.fieldAt_mapField_of_ne h]

@[simp] theorem fresh_markConverging : (feed.markConverging g cause cycle now).fresh f = feed.fresh f :=
  fresh_mapField_sync _ _

@[simp] theorem fresh_markSettled : (feed.markSettled g cycle now).fresh f = feed.fresh f :=
  fresh_mapField_sync _ _

@[simp] theorem markConverging_epoch : (feed.markConverging g cause cycle now).state.epoch = feed.state.epoch :=
  ReceiverState.mapField_epoch

@[simp] theorem markSettled_epoch : (feed.markSettled g cycle now).state.epoch = feed.state.epoch :=
  ReceiverState.mapField_epoch

/-- A failed query leaves every other field alone. -/
theorem fresh_markQueryFailed (message : String) (h : f ≠ g) :
    (feed.markQueryFailed g message).fresh f = feed.fresh f := by
  unfold fresh markQueryFailed ReceiverState.markQueryFailed
  simp only [ReceiverState.fieldAt_bump]
  rw [ReceiverState.fieldAt_mapField_of_ne h]

/-- The queried field keeps its value and is current no more, if it had one. -/
theorem fresh_markQueryFailed_self (message : String) :
    (feed.markQueryFailed g message).fresh g =
      ((feed.fresh g).1, if (feed.fresh g).1.isSome then .stale .queryFailed else (feed.fresh g).2) := by
  unfold fresh markQueryFailed ReceiverState.markQueryFailed
  simp only [ReceiverState.fieldAt_bump]
  rw [ReceiverState.fieldAt_mapField (ReceiverState.natural_markFailed _)]
  unfold FieldState.markFailed
  split_ifs with h <;> simp [FieldState.stale]

theorem fresh_markDisconnected :
    (({ feed with state := feed.state.markDisconnected } : Feed)).fresh f = lost (feed.fresh f) := by
  unfold fresh lost
  simp only [ReceiverState.fieldAt_markDisconnected]
  unfold FieldState.staleIfObserved
  split_ifs with h <;> simp [FieldState.stale]

/-- A feed that is already bound to the generation is left alone. -/
theorem synchronizeGeneration_of_eq (h : generation + 1 = feed.epoch) :
    feed.synchronizeGeneration generation = feed := by
  simp [synchronizeGeneration, h]

/-- Otherwise the connection the feed knew is lost, and the new one is established. -/
theorem synchronizeGeneration_of_ne (feed : Feed) {generation : ℕ} (h : generation + 1 ≠ feed.epoch) :
    (feed.synchronizeGeneration generation).epoch = generation + 1 ∧
      (feed.synchronizeGeneration generation).state.epoch = some (generation + 1) ∧
      (feed.synchronizeGeneration generation).frameSeq = feed.frameSeq ∧
      ∀ f, (feed.synchronizeGeneration generation).fresh f =
        if feed.state.epoch.isSome then lost (feed.fresh f) else feed.fresh f := by
  have heq : feed.synchronizeGeneration generation =
      { feed with
        state := (if feed.state.epoch.isSome then feed.state.markDisconnected
          else feed.state).establishEpoch (generation + 1)
        epoch := generation + 1 } := by
    simp [synchronizeGeneration, h]
  rw [heq]
  refine ⟨rfl, ?_, rfl, fun f => ?_⟩
  · apply ReceiverState.establishEpoch_epoch_of_none
    cases hepoch : feed.state.epoch <;> simp [hepoch]
  · show (_, _) = _
    rw [ReceiverState.fieldAt_establishEpoch]
    split_ifs with hepoch
    · exact fresh_markDisconnected
    · rfl

theorem synchronizeGeneration_epoch : (feed.synchronizeGeneration generation).epoch = generation + 1 := by
  by_cases h : generation + 1 = feed.epoch
  · rw [synchronizeGeneration_of_eq h, h]
  · exact (synchronizeGeneration_of_ne feed h).1

/-! ### One line -/

theorem reduceLineState_of_observation (feed : Feed) (now : MonotonicMillis) (inQuery : Bool) (h : observationOf line = some frame) :
    feed.reduceLineState now line inQuery =
      (if inQuery then feed.state.reduce (feed.stamp now inQuery) (now + validity) frame
        else (feed.state.reduce (feed.stamp now inQuery) (now + validity) frame).markConverging frame.field
          (feed.frameSeq + 1) .receiverEvent (now + reconcileAfter), some frame.field) := by
  unfold observationOf at h
  unfold reduceLineState
  cases hparse : parse line with
  | error error => simp [hparse] at h
  | ok wire =>
    simp only [hparse] at h
    cases wire <;> simp_all [coreFrame]

/-- A line without an observation leaves at most a diagnostic. -/
theorem reduceLineState_of_none (feed : Feed) (now : MonotonicMillis) (inQuery : Bool) (h : observationOf line = none) :
    (feed.reduceLineState now line inQuery).2 = none ∧
      ((feed.reduceLineState now line inQuery).1 = feed.state ∨
        ∃ text, (feed.reduceLineState now line inQuery).1 = feed.state.recordDiagnostic text) := by
  unfold observationOf at h
  unfold reduceLineState
  cases hparse : parse line with
  | error error => exact ⟨rfl, .inr ⟨_, rfl⟩⟩
  | ok wire =>
    simp only [hparse] at h
    cases wire <;> first | exact ⟨rfl, .inl rfl⟩ | exact ⟨rfl, .inr ⟨_, rfl⟩⟩ | cases h

@[simp] theorem reduceLine_frameSeq : (feed.reduceLine now line inQuery).1.frameSeq = feed.frameSeq + 1 := rfl

@[simp] theorem reduceLine_feedEpoch : (feed.reduceLine now line inQuery).1.epoch = feed.epoch := rfl

@[simp] theorem reduceLine_epoch : (feed.reduceLine now line inQuery).1.state.epoch = feed.state.epoch := by
  show (feed.reduceLineState now line inQuery).1.epoch = _
  cases hobs : observationOf line with
  | none =>
    rcases (reduceLineState_of_none feed now inQuery hobs).2 with
      h | ⟨text, h⟩ <;> rw [h]
    rfl
  | some frame =>
    rw [reduceLineState_of_observation feed now inQuery hobs]
    cases inQuery
    · exact ReceiverState.mapField_epoch.trans ReceiverState.reduce_epoch
    · exact ReceiverState.reduce_epoch

theorem fresh_reduceLine_of_none (h : observationOf line = none) :
    (feed.reduceLine now line inQuery).1.fresh f = feed.fresh f := by
  show (((feed.reduceLineState now line inQuery).1.fieldAt f).lastGood,
    ((feed.reduceLineState now line inQuery).1.fieldAt f).validity) = _
  rcases (reduceLineState_of_none feed now inQuery h).2 with
    h | ⟨text, h⟩
  · rw [h]
    rfl
  · rw [h, ReceiverState.fieldAt_recordDiagnostic]
    rfl

/-- A line with an observation is about the fields as the reducer leaves them. -/
theorem fresh_reduceLine_of_some (h : observationOf line = some frame) :
    (feed.reduceLine now line inQuery).1.fresh f =
      (({ feed with state := feed.state.reduce (feed.stamp now inQuery) (now + validity) frame } :
        Feed)).fresh f := by
  show (((feed.reduceLineState now line inQuery).1.fieldAt f).lastGood,
    ((feed.reduceLineState now line inQuery).1.fieldAt f).validity) = _
  rw [reduceLineState_of_observation feed now inQuery h]
  cases inQuery
  · exact fresh_mapField_sync
      { feed with state := feed.state.reduce (feed.stamp now false) (now + validity) frame } _
  · rfl

theorem accepts_stamp_iff :
    feed.state.accepts (feed.stamp now inQuery) = true ↔ feed.state.epoch = some feed.epoch := by
  simp [ReceiverState.accepts, stamp]

/-- Evidence of another connection than the established one changes no field. -/
theorem fresh_reduceLine_of_rejected (h : feed.state.epoch ≠ some feed.epoch) :
    (feed.reduceLine now line inQuery).1.fresh f = feed.fresh f := by
  cases hobs : observationOf line with
  | none => exact fresh_reduceLine_of_none hobs
  | some frame =>
    rw [fresh_reduceLine_of_some hobs]
    have hrej : ¬ feed.state.accepts (feed.stamp now inQuery) = true := fun h' => h (accepts_stamp_iff.mp h')
    simp only [ReceiverState.reduce, if_neg hrej]

theorem fresh_reduceLine_of_ne (h : observationOf line = some frame) (hne : f ≠ frame.field) :
    (feed.reduceLine now line inQuery).1.fresh f = feed.fresh f := by
  rw [fresh_reduceLine_of_some h]
  unfold ReceiverState.reduce
  split_ifs
  · unfold fresh
    simp only [ReceiverState.fieldAt_bump]
    rw [ReceiverState.fieldAt_applyFrame_of_ne hne]
  · rfl

/-- **What an accepted line does to its field**: it is observed under the feed's own stamp, or shown to be
unavailable with the value it had. -/
theorem fresh_reduceLine_of_accepted (now : MonotonicMillis) (inQuery : Bool) (h : observationOf line = some frame)
    (haccepted : feed.state.epoch = some feed.epoch) :
    (feed.reduceLine now line inQuery).1.fresh frame.field =
        (some ((feed.stamp now inQuery).observed frame), .current (now + validity)) ∨
      ∃ raw, (feed.reduceLine now line inQuery).1.fresh frame.field =
        ((feed.fresh frame.field).1, .unavailable raw) := by
  rw [fresh_reduceLine_of_some h]
  unfold ReceiverState.reduce
  rw [if_pos (accepts_stamp_iff.mpr haccepted)]
  unfold fresh
  simp only [ReceiverState.fieldAt_bump]
  rcases ReceiverState.fieldAt_applyFrame feed.state (feed.stamp now inQuery) (now + validity) frame with heq | ⟨raw, -, heq⟩
  · left
    rw [heq]
    rfl
  · right
    exact ⟨raw, by rw [heq]⟩

/-- **Where a good value comes from**: it was there before, or the line says it and it has the feed's own stamp. -/
theorem good_reduceLine {o : Observation CoreFrame} (h : ((feed.reduceLine now line inQuery).1.fresh f).1 = some o) :
    (feed.fresh f).1 = some o ∨
      ∃ frame, observationOf line = some frame ∧ frame.field = f ∧ o = (feed.stamp now inQuery).observed frame := by
  cases hobs : observationOf line with
  | none =>
    rw [fresh_reduceLine_of_none hobs] at h
    exact .inl h
  | some frame =>
    by_cases haccepted : feed.state.epoch = some feed.epoch
    · by_cases hf : f = frame.field
      · subst hf
        rcases fresh_reduceLine_of_accepted now inQuery hobs haccepted with heq | ⟨raw, heq⟩
        · rw [heq] at h
          exact .inr ⟨frame, rfl, rfl, (Option.some.inj h).symm⟩
        · rw [heq] at h
          exact .inl h
      · rw [fresh_reduceLine_of_ne hobs hf] at h
        exact .inl h
    · rw [fresh_reduceLine_of_rejected haccepted] at h
      exact .inl h

end Field

/-! ### Feeds a session can have -/

/-- A field presented as usable. -/
def Current (feed : Feed) (f : CoreField) : Prop := (feed.state.fieldAt f).Current

instance (feed : Feed) (f : CoreField) : Decidable (feed.Current f) :=
  inferInstanceAs (Decidable (feed.state.fieldAt f).Current)

theorem current_iff {feed : Feed} {f : CoreField} :
    feed.Current f ↔ ∃ validUntil, (feed.fresh f).2 = .current validUntil :=
  Iff.rfl

/-- What the session keeps of its feed: the established epoch is the feed's, a current field has been observed
on the established connection, and no observation is from a later line. -/
structure Valid (feed : Feed) : Prop where
  epoch : ∀ e, feed.state.epoch = some e → e = feed.epoch
  current : ∀ f, feed.Current f → ∃ o, (feed.fresh f).1 = some o ∧ feed.state.epoch = some o.epoch
  seq : ∀ f o, (feed.fresh f).1 = some o → o.frameSeq ≤ feed.frameSeq

section Valid
variable {feed feed' : Feed} {f : CoreField}

/-- Without an established connection nothing is current. -/
theorem Valid.not_current (h : feed.Valid) (hnone : feed.state.epoch = none) : ¬ feed.Current f := by
  intro hcur
  obtain ⟨o, -, ho⟩ := h.current f hcur
  rw [hnone] at ho
  cases ho

/-- On the same connection a field is left alone, is made unusable, or is observed there. -/
theorem Valid.of_same_epoch (h : feed.Valid) (hstate : feed'.state.epoch = feed.state.epoch)
    (hepoch : feed'.epoch = feed.epoch) (hseq : feed.frameSeq ≤ feed'.frameSeq)
    (hfield : ∀ f, feed'.fresh f = feed.fresh f ∨
      ((feed'.fresh f).1 = (feed.fresh f).1 ∧ ¬ feed'.Current f) ∨
      ∃ o, (feed'.fresh f).1 = some o ∧ feed.state.epoch = some o.epoch ∧ o.frameSeq ≤ feed'.frameSeq) :
    feed'.Valid := by
  refine ⟨fun e he => ?_, fun f hcur => ?_, fun f o ho => ?_⟩
  · rw [hepoch]
    exact h.epoch e (hstate ▸ he)
  · rw [hstate]
    rcases hfield f with hsame | ⟨-, hnot⟩ | ⟨o, ho, hoe, -⟩
    · have hcur' : feed.Current f := by
        rw [current_iff, ← hsame]
        exact hcur
      rw [hsame]
      exact h.current f hcur'
    · exact absurd hcur hnot
    · exact ⟨o, ho, hoe⟩
  · rcases hfield f with hsame | ⟨hsame, -⟩ | ⟨o', ho', -, hle⟩
    · exact (h.seq f o (hsame ▸ ho)).trans hseq
    · exact (h.seq f o (hsame ▸ ho)).trans hseq
    · rw [ho'] at ho
      cases ho
      exact hle

/-- A lost field is not current. -/
theorem Valid.not_current_of_lost (h : feed.Valid) (hlost : feed'.fresh f = lost (feed.fresh f)) :
    ¬ feed'.Current f := by
  rintro ⟨validUntil, hcur⟩
  have hcur' : (lost (feed.fresh f)).2 = .current validUntil := hlost ▸ hcur
  unfold lost at hcur'
  split_ifs at hcur' with hsome
  obtain ⟨o, ho, -⟩ := h.current f ⟨validUntil, hcur'⟩
  exact hsome (by rw [ho]; rfl)

/-- Once a connection is lost no field is current, whatever is established next. -/
theorem Valid.of_lost (h : feed.Valid) (hepoch : ∀ e, feed'.state.epoch = some e → e = feed'.epoch)
    (hseq : feed.frameSeq ≤ feed'.frameSeq) (hlost : ∀ f, feed'.fresh f = lost (feed.fresh f)) :
    feed'.Valid := by
  refine ⟨hepoch, fun f hcur => absurd hcur (h.not_current_of_lost (hlost f)), fun f o ho => ?_⟩
  have ho' : (feed.fresh f).1 = some o := by
    have := hlost f ▸ ho
    exact this
  exact (h.seq f o ho').trans hseq

theorem Valid.markConverging (h : feed.Valid) (g : CoreField) (cause : SyncCause) (cycle : SyncCycleId)
    (now : MonotonicMillis) : (feed.markConverging g cause cycle now).Valid :=
  h.of_same_epoch markConverging_epoch rfl le_rfl fun _ => .inl fresh_markConverging

theorem Valid.markSettled (h : feed.Valid) (g : CoreField) (cycle : SyncCycleId) (now : MonotonicMillis) :
    (feed.markSettled g cycle now).Valid :=
  h.of_same_epoch markSettled_epoch rfl le_rfl fun _ => .inl fresh_markSettled

theorem Valid.markQueryFailed (h : feed.Valid) (g : CoreField) (message : String) :
    (feed.markQueryFailed g message).Valid := by
  refine h.of_same_epoch ReceiverState.mapField_epoch rfl le_rfl fun f => ?_
  by_cases hf : f = g
  · subst hf
    refine .inr (.inl ⟨by rw [fresh_markQueryFailed_self], ?_⟩)
    rintro ⟨validUntil, hcur⟩
    have hcur' : ((feed.markQueryFailed f message).fresh f).2 = .current validUntil := hcur
    rw [fresh_markQueryFailed_self] at hcur'
    dsimp only at hcur'
    split_ifs at hcur' with hsome
    obtain ⟨o, ho, -⟩ := h.current f ⟨validUntil, hcur'⟩
    exact hsome (by rw [ho]; rfl)
  · exact .inl (fresh_markQueryFailed message hf)

theorem fresh_expire (feed : Feed) (f : CoreField) (now : MonotonicMillis) :
    (feed.expire now).fresh f = feed.fresh f ∨
      ((feed.expire now).fresh f).1 = (feed.fresh f).1 ∧ ¬ (feed.expire now).Current f := by
  unfold Feed.expire ReceiverState.expireFields
  split_ifs with hany
  · unfold Current fresh
    simp only [ReceiverState.fieldAt_bump]
    rw [ReceiverState.fieldAt_mapFields (ReceiverState.natural_expireIfDue now)]
    by_cases hdue : (feed.state.fieldAt f).due now = true
    · right
      have heq : FieldState.expireIfDue now (feed.state.fieldAt f) =
          (feed.state.fieldAt f).stale .expired "receiver observation validity expired" := if_pos hdue
      rw [heq]
      exact ⟨rfl, fun ⟨validUntil, hcur⟩ => by cases hcur⟩
    · left
      have heq : FieldState.expireIfDue now (feed.state.fieldAt f) = feed.state.fieldAt f := if_neg hdue
      rw [heq]
  · exact .inl rfl

theorem expire_epoch (now : MonotonicMillis) : (feed.expire now).state.epoch = feed.state.epoch := by
  unfold Feed.expire ReceiverState.expireFields
  split_ifs <;> rfl

theorem Valid.expire (h : feed.Valid) (now : MonotonicMillis) : (feed.expire now).Valid := by
  refine h.of_same_epoch (expire_epoch now) rfl le_rfl fun f => ?_
  rcases fresh_expire feed f now with hsame | hstale
  · exact .inl hsame
  · exact .inr (.inl hstale)

theorem Valid.synchronizeGeneration (h : feed.Valid) (generation : ℕ) :
    (feed.synchronizeGeneration generation).Valid := by
  by_cases heq : generation + 1 = feed.epoch
  · rw [synchronizeGeneration_of_eq heq]
    exact h
  · obtain ⟨hepoch, hstate, hseq, hfresh⟩ := synchronizeGeneration_of_ne feed heq
    have hfeed : ∀ e, (feed.synchronizeGeneration generation).state.epoch = some e →
        e = (feed.synchronizeGeneration generation).epoch := by
      intro e he
      rw [hstate] at he
      cases he
      exact hepoch.symm
    by_cases hsome : feed.state.epoch.isSome
    · exact h.of_lost hfeed hseq.ge fun f => by rw [hfresh, if_pos hsome]
    · have hnone : feed.state.epoch = none := by simpa using hsome
      refine ⟨hfeed, fun f hcur => ?_, fun f o ho => ?_⟩
      · rw [current_iff, hfresh, if_neg hsome] at hcur
        exact absurd hcur (h.not_current hnone)
      · rw [hfresh, if_neg hsome] at ho
        exact (h.seq f o ho).trans hseq.ge

theorem Valid.reduceLine (h : feed.Valid) (now : MonotonicMillis) (line : String) (inQuery : Bool) :
    (feed.reduceLine now line inQuery).1.Valid := by
  refine h.of_same_epoch reduceLine_epoch rfl (Nat.le_succ _) fun f => ?_
  by_cases haccepted : feed.state.epoch = some feed.epoch
  · cases hobs : observationOf line with
    | none => exact .inl (fresh_reduceLine_of_none hobs)
    | some frame =>
      by_cases hf : f = frame.field
      · subst hf
        rcases fresh_reduceLine_of_accepted now inQuery hobs haccepted with
          heq | ⟨raw, heq⟩
        · exact .inr (.inr ⟨_, by rw [heq], haccepted, le_rfl⟩)
        · refine .inr (.inl ⟨by rw [heq], ?_⟩)
          rw [current_iff, heq]
          rintro ⟨validUntil, hcur⟩
          cases hcur
      · exact .inl (fresh_reduceLine_of_ne hobs hf)
  · exact .inl (fresh_reduceLine_of_rejected haccepted)

theorem Valid.applyEvent (h : feed.Valid) (now : MonotonicMillis) (event : SessionEvent) :
    (feed.applyEvent now event).1.Valid := by
  cases event with
  | connected => exact h
  | line text => exact h.reduceLine now text false
  | disconnected generation message =>
    simp only [Feed.applyEvent]
    split_ifs
    · exact h
    · exact h.of_lost (fun e he => by cases he) le_rfl fun f => fresh_markDisconnected
  | reconnected =>
    refine h.of_lost (fun e he => ?_) le_rfl fun f => ?_
    · have hest := ReceiverState.establishEpoch_epoch_of_none (feed.epoch + 1)
        (ReceiverState.markDisconnected_epoch feed.state)
      exact (Option.some.inj (hest.symm.trans he)).symm
    · rw [← fresh_markDisconnected]
      unfold Feed.applyEvent fresh
      simp only [ReceiverState.fieldAt_establishEpoch]

end Valid

/-- The feeds a session comes by: what its operations make of a fresh one. -/
inductive Reached : Feed → Prop
  | new (receiver : ReceiverId) : Reached (Feed.new receiver)
  | synchronizeGeneration {feed : Feed} (h : Reached feed) (generation : ℕ) :
      Reached (feed.synchronizeGeneration generation)
  | reduceLine {feed : Feed} (h : Reached feed) (now : MonotonicMillis) (line : String) (inQuery : Bool) :
      Reached (feed.reduceLine now line inQuery).1
  | applyEvent {feed : Feed} (h : Reached feed) (now : MonotonicMillis) (event : SessionEvent) :
      Reached (feed.applyEvent now event).1
  | markConverging {feed : Feed} (h : Reached feed) (field : CoreField) (cause : SyncCause)
      (cycle : SyncCycleId) (now : MonotonicMillis) : Reached (feed.markConverging field cause cycle now)
  | markSettled {feed : Feed} (h : Reached feed) (field : CoreField) (cycle : SyncCycleId)
      (now : MonotonicMillis) : Reached (feed.markSettled field cycle now)
  | markQueryFailed {feed : Feed} (h : Reached feed) (field : CoreField) (message : String) :
      Reached (feed.markQueryFailed field message)
  | expire {feed : Feed} (h : Reached feed) (now : MonotonicMillis) : Reached (feed.expire now)

theorem valid_new (receiver : ReceiverId) : (Feed.new receiver).Valid := by
  refine ⟨fun e he => ?_, fun f hcur => ?_, fun f o ho => ?_⟩
  · cases he
    rfl
  · obtain ⟨validUntil, hcur⟩ := hcur
    cases f <;> cases hcur
  · cases f <;> cases ho

theorem Reached.valid {feed : Feed} (h : feed.Reached) : feed.Valid := by
  induction h with
  | new receiver => exact valid_new receiver
  | synchronizeGeneration _ generation ih => exact ih.synchronizeGeneration generation
  | reduceLine _ now line inQuery ih => exact ih.reduceLine now line inQuery
  | applyEvent _ now event ih => exact ih.applyEvent now event
  | markConverging _ field cause cycle now ih => exact ih.markConverging field cause cycle now
  | markSettled _ field cycle now ih => exact ih.markSettled field cycle now
  | markQueryFailed _ field message ih => exact ih.markQueryFailed field message
  | expire _ now ih => exact ih.expire now

end Feed

/-- The receiver of the runs shown below. -/
def livingRoom : ReceiverId := ⟨"living room", by decide⟩

end DenonAvr.Session
