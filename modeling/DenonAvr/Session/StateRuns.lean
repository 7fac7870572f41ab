import DenonAvr.Session.Feed

/-!
# The canonical state over a session's life

Whatever a session applies to its state, and in whatever order: lines, lost and new connections, expiry, failed
queries, synchronization marks. A current field was observed on the established connection, a last good value is
kept until a later line replaces it, and the revision tells every change.

The seven fields have values of different types; `ReceiverState.Fields` says a relation of all of them.
-/

namespace DenonAvr.Domain

/-- A relation between a field before and after. -/
abbrev FieldRelation := ∀ {α : Type}, FieldState α → FieldState α → Prop

namespace ReceiverState

/-- Every field of one state is related to the same field of the other. -/
structure Fields (R : FieldRelation) (s t : ReceiverState) : Prop where
  systemPower : R s.systemPower t.systemPower
  power : R s.mainZone.power t.mainZone.power
  source : R s.mainZone.source t.mainZone.source
  volume : R s.mainZone.volume t.mainZone.volume
  mute : R s.mainZone.mute t.mainZone.mute
  soundMode : R s.mainZone.soundMode t.mainZone.soundMode
  zone2Power : R s.zone2Power t.zone2Power

section Fields
variable {R S T : FieldRelation} {s t u : ReceiverState}

theorem fields_refl (h : ∀ {α : Type} (a : FieldState α), R a a) (s : ReceiverState) : s.Fields R s :=
  ⟨h _, h _, h _, h _, h _, h _, h _⟩

theorem Fields.imp (h : ∀ {α : Type} {a b : FieldState α}, R a b → S a b) (hR : s.Fields R t) : s.Fields S t :=
  ⟨h hR.systemPower, h hR.power, h hR.source, h hR.volume, h hR.mute, h hR.soundMode, h hR.zone2Power⟩

theorem Fields.comp (h : ∀ {α : Type} {a b c : FieldState α}, R a b → S b c → T a c) (hR : s.Fields R t)
    (hS : t.Fields S u) : s.Fields T u :=
  ⟨h hR.systemPower hS.systemPower, h hR.power hS.power, h hR.source hS.source, h hR.volume hS.volume,
    h hR.mute hS.mute, h hR.soundMode hS.soundMode, h hR.zone2Power hS.zone2Power⟩

theorem fields_mapFields (update : FieldUpdate) (h : ∀ {α : Type} (a : FieldState α), R a (update a)) (s : ReceiverState) :
    s.Fields R (s.mapFields update) :=
  ⟨h _, h _, h _, h _, h _, h _, h _⟩

theorem fields_mapField (update : FieldUpdate) (hrefl : ∀ {α : Type} (a : FieldState α), R a a)
    (h : ∀ {α : Type} (a : FieldState α), R a (update a)) (s : ReceiverState) (f : CoreField) :
    s.Fields R (s.mapField f update) := by
  have hsame := fields_refl hrefl s
  cases f with
  | systemPower => exact { hsame with systemPower := h _ }
  | mainZonePower => exact { hsame with power := h _ }
  | zone2Power => exact { hsame with zone2Power := h _ }
  | source => exact { hsame with source := h _ }
  | volume => exact { hsame with volume := h _ }
  | mute => exact { hsame with mute := h _ }
  | soundMode => exact { hsame with soundMode := h _ }

/-- A frame observes one field, or shows the volume to be unavailable. -/
theorem fields_applyFrame (stamp : Stamp) (validUntil : MonotonicMillis)
    (hrefl : ∀ {α : Type} (a : FieldState α), R a a)
    (hobserve : ∀ {α : Type} (a : FieldState α) (value : α), R a (a.observe (stamp.observed value) validUntil))
    (hunavailable : ∀ {α : Type} (a : FieldState α) (raw : String), R a { a with validity := .unavailable raw })
    (s : ReceiverState) (frame : CoreFrame) : s.Fields R (s.applyFrame stamp validUntil frame) := by
  have hsame := fields_refl hrefl s
  cases frame with
  | systemPower value => exact { hsame with systemPower := hobserve _ value }
  | mainZonePower value => exact { hsame with power := hobserve _ value }
  | zone2Power value => exact { hsame with zone2Power := hobserve _ value }
  | source value => exact { hsame with source := hobserve _ value }
  | volume value => exact { hsame with volume := hobserve _ value }
  | mute value => exact { hsame with mute := hobserve _ value }
  | soundMode value => exact { hsame with soundMode := hobserve _ value }
  | volumeUnavailable raw => exact { hsame with volume := hunavailable _ raw }

end Fields

/-! ### Revisions -/

/-- One state comes from another, and its revision tells whether anything is different. -/
def Advances (s t : ReceiverState) : Prop := t = s ∨ s.revision < t.revision

section Advances
variable {s t u : ReceiverState}

theorem Advances.trans (h : s.Advances t) (h' : t.Advances u) : s.Advances u := by
  rcases h with rfl | h
  · exact h'
  · rcases h' with rfl | h'
    · exact .inr h
    · exact .inr (h.trans h')

theorem Advances.revision_le (h : s.Advances t) : s.revision ≤ t.revision := by
  rcases h with rfl | h
  · exact le_rfl
  · exact h.le

theorem mapField_revision (s : ReceiverState) (f : CoreField) (update : FieldUpdate) :
    (s.mapField f update).revision = s.revision := by
  cases f <;> rfl

theorem applyFrame_revision (s : ReceiverState) (stamp : Stamp) (validUntil : MonotonicMillis) (frame : CoreFrame) :
    (s.applyFrame stamp validUntil frame).revision = s.revision := by
  cases frame <;> rfl

/-- Every transition that changes anything ends with a bump. -/
theorem advances_bump (h : t.revision = s.revision) : s.Advances t.bump := .inr (by rw [← h]; exact Nat.lt_succ_self _)

theorem advances_recordDiagnostic (s : ReceiverState) (text : String) : s.Advances (s.recordDiagnostic text) :=
  advances_bump rfl

theorem advances_markDisconnected (s : ReceiverState) : s.Advances s.markDisconnected := advances_bump rfl

theorem advances_expireFields (s : ReceiverState) (now : MonotonicMillis) : s.Advances (s.expireFields now) := by
  unfold expireFields
  split_ifs
  · exact advances_bump rfl
  · exact .inl rfl

theorem advances_establishEpoch (s : ReceiverState) (epoch : Epoch) : s.Advances (s.establishEpoch epoch) := by
  unfold establishEpoch
  split_ifs
  · exact .inl rfl
  · exact advances_bump rfl

theorem advances_markConverging (s : ReceiverState) (field : CoreField) (cycle : SyncCycleId) (cause : SyncCause)
    (reconcileBy : MonotonicMillis) : s.Advances (s.markConverging field cycle cause reconcileBy) :=
  advances_bump (mapField_revision _ _ _)

theorem advances_markSettled (s : ReceiverState) (field : CoreField) (cycle : SyncCycleId) (observedAt : MonotonicMillis) :
    s.Advances (s.markSettled field cycle observedAt) :=
  advances_bump (mapField_revision _ _ _)

theorem advances_markQueryFailed (s : ReceiverState) (field : CoreField) (message : String) :
    s.Advances (s.markQueryFailed field message) :=
  advances_bump (mapField_revision _ _ _)

theorem advances_reduce (s : ReceiverState) (stamp : Stamp) (validUntil : MonotonicMillis) (frame : CoreFrame) :
    s.Advances (s.reduce stamp validUntil frame) := by
  unfold reduce
  split_ifs
  · exact advances_bump (applyFrame_revision _ _ _ _)
  · exact .inl rfl

end Advances

end ReceiverState

end DenonAvr.Domain

namespace DenonAvr.Session

open Domain Protocol

/-! ### What a session does to its feed -/

inductive FeedOp
  | synchronizeGeneration (generation : ℕ)
  | reduceLine (line : String) (inQuery : Bool)
  | event (event : SessionEvent)
  | markConverging (field : CoreField) (cause : SyncCause) (cycle : SyncCycleId)
  | markSettled (field : CoreField) (cycle : SyncCycleId)
  | markQueryFailed (field : CoreField) (message : String)
  | expire
deriving DecidableEq

def FeedOp.apply (op : FeedOp) (feed : Feed) (now : MonotonicMillis) : Feed :=
  match op with
  | .synchronizeGeneration generation => feed.synchronizeGeneration generation
  | .reduceLine line inQuery => (feed.reduceLine now line inQuery).1
  | .event e => (feed.applyEvent now e).1
  | .markConverging field cause cycle => feed.markConverging field cause cycle now
  | .markSettled field cycle => feed.markSettled field cycle now
  | .markQueryFailed field message => feed.markQueryFailed field message
  | .expire => feed.expire now

/-- A feed and the clock it is stamped from, which does not run backwards. -/
structure Timed where
  feed : Feed
  clock : MonotonicMillis := 0
deriving DecidableEq

/-- The next operation, so many milliseconds after the last one. -/
def Timed.step (s : Timed) (act : ℕ × FeedOp) : Timed where
  feed := act.2.apply s.feed (s.clock + act.1)
  clock := s.clock + act.1

def Timed.run (s : Timed) (acts : List (ℕ × FeedOp)) : Timed := acts.foldl Timed.step s

theorem Timed.run_cons (s : Timed) (act : ℕ × FeedOp) (acts : List (ℕ × FeedOp)) :
    s.run (act :: acts) = (s.step act).run acts := rfl

theorem Timed.run_append (s : Timed) (acts rest : List (ℕ × FeedOp)) : s.run (acts ++ rest) = (s.run acts).run rest :=
  List.foldl_append

/-! ### One operation -/

/-- The last good value is left alone, or replaced by one stamped behind `seq`, up to `seq'`, at the time `now`. -/
def Moved (seq seq' : FrameSeq) (now : MonotonicMillis) : FieldRelation := fun a b =>
  b.lastGood = a.lastGood ∨ ∃ o, b.lastGood = some o ∧ seq < o.frameSeq ∧ o.frameSeq ≤ seq' ∧ o.observedAt = now

/-- The last good value is left alone. -/
def SameGood : FieldRelation := fun a b => b.lastGood = a.lastGood

/-- What one operation may do: it moves fields, sequence number and revision ahead. -/
structure Ahead (feed feed' : Feed) (now : MonotonicMillis) : Prop where
  seq : feed.frameSeq ≤ feed'.frameSeq
  fields : feed.state.Fields (Moved feed.frameSeq feed'.frameSeq now) feed'.state
  advances : feed.state.Advances feed'.state

section Ahead
variable {seq seq' : FrameSeq} {now : MonotonicMillis} {feed : Feed} {α : Type}

theorem SameGood.moved {a b : FieldState α} (h : SameGood a b) : Moved seq seq' now a b := .inl h

theorem sameGood_refl (a : FieldState α) : SameGood a a := rfl

theorem sameGood_staleIfObserved (a : FieldState α) : SameGood a a.staleIfObserved := by
  unfold SameGood FieldState.staleIfObserved
  split_ifs <;> rfl

theorem sameGood_markFailed (message : String) (a : FieldState α) : SameGood a (a.markFailed message) := by
  unfold SameGood FieldState.markFailed
  split_ifs <;> rfl

theorem sameGood_expireIfDue (now : MonotonicMillis) (a : FieldState α) : SameGood a (a.expireIfDue now) := by
  unfold SameGood FieldState.expireIfDue
  split_ifs <;> rfl

theorem sameGood_markDisconnected (state : ReceiverState) : state.Fields SameGood state.markDisconnected :=
  { ReceiverState.fields_mapFields FieldState.staleIfObserved sameGood_staleIfObserved state with }

theorem sameGood_establishEpoch (state : ReceiverState) (epoch : Epoch) :
    state.Fields SameGood (state.establishEpoch epoch) := by
  unfold ReceiverState.establishEpoch
  split_ifs
  · exact ReceiverState.fields_refl sameGood_refl state
  · exact { ReceiverState.fields_refl sameGood_refl state with }

theorem sameGood_recordDiagnostic (state : ReceiverState) (text : String) :
    state.Fields SameGood (state.recordDiagnostic text) :=
  { ReceiverState.fields_refl sameGood_refl state with }

theorem sameGood_setSynchronization (state : ReceiverState) (field : CoreField) (value : FieldSynchronization) :
    state.Fields SameGood (state.mapField field (FieldState.setSynchronization value)).bump :=
  { ReceiverState.fields_mapField (FieldState.setSynchronization value) sameGood_refl (fun _ => rfl) state field with }

theorem sameGood_markQueryFailed (state : ReceiverState) (field : CoreField) (message : String) :
    state.Fields SameGood (state.markQueryFailed field message) :=
  { ReceiverState.fields_mapField (FieldState.markFailed message) sameGood_refl (sameGood_markFailed message) state
      field with }

theorem sameGood_expireFields (state : ReceiverState) (time : MonotonicMillis) :
    state.Fields SameGood (state.expireFields time) := by
  unfold ReceiverState.expireFields
  split_ifs
  · exact { ReceiverState.fields_mapFields (FieldState.expireIfDue time) (sameGood_expireIfDue time) state with }
  · exact ReceiverState.fields_refl sameGood_refl state

theorem SameGood.trans {a b c : FieldState α} (h : SameGood a b) (h' : SameGood b c) : SameGood a c := Eq.trans h' h

/-- Two changes one after the other, when the second replaces nothing. -/
theorem Moved.comp_same {a b c : FieldState α} (h : Moved seq seq' now a b) (h' : SameGood b c) :
    Moved seq seq' now a c := by
  rcases h with h | ⟨o, ho, hrest⟩
  · exact .inl (Eq.trans h' h)
  · exact .inr ⟨o, Eq.trans h' ho, hrest⟩

/-- An operation that reads no line. -/
theorem ahead_of_sameGood {feed' : Feed} (hseq : feed'.frameSeq = feed.frameSeq)
    (hfields : feed.state.Fields SameGood feed'.state) (hadvances : feed.state.Advances feed'.state) :
    Ahead feed feed' now :=
  ⟨hseq.ge, hfields.imp SameGood.moved, hadvances⟩

theorem ahead_markDisconnected (feed : Feed) (now : MonotonicMillis) :
    Ahead feed { feed with state := feed.state.markDisconnected } now :=
  ahead_of_sameGood rfl (sameGood_markDisconnected _) (ReceiverState.advances_markDisconnected _)

/-- The connection the state knew is lost, and another is established. -/
theorem ahead_reconnect (feed : Feed) (epoch epoch' : Epoch) (now : MonotonicMillis) :
    Ahead feed { feed with state := feed.state.markDisconnected.establishEpoch epoch, epoch := epoch' } now :=
  ahead_of_sameGood rfl ((sameGood_markDisconnected _).comp SameGood.trans (sameGood_establishEpoch _ _))
    ((ReceiverState.advances_markDisconnected _).trans (ReceiverState.advances_establishEpoch _ _))

theorem ahead_establish (feed : Feed) (epoch epoch' : Epoch) (now : MonotonicMillis) :
    Ahead feed { feed with state := feed.state.establishEpoch epoch, epoch := epoch' } now :=
  ahead_of_sameGood rfl (sameGood_establishEpoch _ _) (ReceiverState.advances_establishEpoch _ _)

theorem ahead_synchronizeGeneration (feed : Feed) (generation : ℕ) (now : MonotonicMillis) :
    Ahead feed (feed.synchronizeGeneration generation) now := by
  unfold Feed.synchronizeGeneration
  dsimp only
  split_ifs with hsame hconnected
  · exact ahead_of_sameGood rfl (ReceiverState.fields_refl sameGood_refl _) (.inl rfl)
  · exact ahead_reconnect feed _ _ now
  · exact ahead_establish feed _ _ now

/-- An accepted observation is stamped with the number of its line. -/
theorem moved_reduce (feed : Feed) (now : MonotonicMillis) (inQuery : Bool) (validUntil : MonotonicMillis) (frame : CoreFrame) :
    feed.state.Fields (Moved feed.frameSeq (feed.frameSeq + 1) now)
      (feed.state.reduce (feed.stamp now inQuery) validUntil frame) := by
  have hrefl : ∀ {α : Type} (a : FieldState α), Moved feed.frameSeq (feed.frameSeq + 1) now a a := fun _ => .inl rfl
  unfold ReceiverState.reduce
  split_ifs
  · have happly := ReceiverState.fields_applyFrame (feed.stamp now inQuery) validUntil hrefl
      (fun _ _ => .inr ⟨_, rfl, Nat.lt_succ_self _, le_rfl, rfl⟩) (fun _ _ => .inl rfl) feed.state frame
    exact { happly with }
  · exact ReceiverState.fields_refl hrefl _

theorem ahead_reduceLine (feed : Feed) (now : MonotonicMillis) (line : String) (inQuery : Bool) :
    Ahead feed (feed.reduceLine now line inQuery).1 now := by
  refine ⟨Nat.le_succ _, ?_, ?_⟩
  · show feed.state.Fields (Moved feed.frameSeq (feed.frameSeq + 1) now) (feed.reduceLineState now line inQuery).1
    cases hobs : observationOf line with
    | none =>
      rcases (Feed.reduceLineState_of_none feed now inQuery hobs).2 with h | ⟨text, h⟩
      · rw [h]
        exact ReceiverState.fields_refl (fun _ => .inl rfl) _
      · rw [h]
        exact (sameGood_recordDiagnostic _ _).imp SameGood.moved
    | some frame =>
      rw [Feed.reduceLineState_of_observation feed now inQuery hobs]
      cases inQuery with
      | true => exact moved_reduce feed now true _ frame
      | false => exact (moved_reduce feed now false _ frame).comp Moved.comp_same (sameGood_setSynchronization _ _ _)
  · show feed.state.Advances (feed.reduceLineState now line inQuery).1
    cases hobs : observationOf line with
    | none =>
      rcases (Feed.reduceLineState_of_none feed now inQuery hobs).2 with h | ⟨text, h⟩
      · rw [h]
        exact .inl rfl
      · rw [h]
        exact ReceiverState.advances_recordDiagnostic _ _
    | some frame =>
      rw [Feed.reduceLineState_of_observation feed now inQuery hobs]
      cases inQuery with
      | true => exact ReceiverState.advances_reduce _ _ _ _
      | false =>
        exact (ReceiverState.advances_reduce _ _ _ _).trans (ReceiverState.advances_markConverging _ _ _ _ _)

theorem ahead_apply (op : FeedOp) (feed : Feed) (now : MonotonicMillis) : Ahead feed (op.apply feed now) now := by
  cases op with
  | synchronizeGeneration generation => exact ahead_synchronizeGeneration feed generation now
  | reduceLine line inQuery => exact ahead_reduceLine feed now line inQuery
  | event e =>
    have hsame : Ahead feed feed now := ahead_of_sameGood rfl (ReceiverState.fields_refl sameGood_refl _) (.inl rfl)
    cases e with
    | connected => exact hsame
    | line text => exact ahead_reduceLine feed now text false
    | disconnected generation message =>
      simp only [FeedOp.apply, Feed.applyEvent]
      split_ifs
      · exact hsame
      · exact ahead_markDisconnected feed now
    | reconnected => exact ahead_reconnect feed _ _ now
  | markConverging field cause cycle =>
    exact ahead_of_sameGood rfl (sameGood_setSynchronization _ _ _) (ReceiverState.advances_markConverging _ _ _ _ _)
  | markSettled field cycle =>
    exact ahead_of_sameGood rfl (sameGood_setSynchronization _ _ _) (ReceiverState.advances_markSettled _ _ _ _)
  | markQueryFailed field message =>
    exact ahead_of_sameGood rfl (sameGood_markQueryFailed _ _ _) (ReceiverState.advances_markQueryFailed _ _ _)
  | expire => exact ahead_of_sameGood rfl (sameGood_expireFields _ _) (ReceiverState.advances_expireFields _ _)

theorem reached_apply (op : FeedOp) {feed : Feed} (h : feed.Reached) (now : MonotonicMillis) : (op.apply feed now).Reached := by
  cases op with
  | synchronizeGeneration generation => exact h.synchronizeGeneration generation
  | reduceLine line inQuery => exact h.reduceLine now line inQuery
  | event e => exact h.applyEvent now e
  | markConverging field cause cycle => exact h.markConverging field cause cycle now
  | markSettled field cycle => exact h.markSettled field cycle now
  | markQueryFailed field message => exact h.markQueryFailed field message
  | expire => exact h.expire now

end Ahead

/-! ### A whole life -/

/-- The last good value is of a line up to `seq`, received at the time `clock` or before. -/
def Within (seq : FrameSeq) (clock : MonotonicMillis) : FieldRelation := fun _ b =>
  ∀ o, b.lastGood = some o → o.frameSeq ≤ seq ∧ o.observedAt ≤ clock

/-- A last good value is still there, or one of a later line is. -/
def Renewed : FieldRelation := fun a b =>
  ∀ o, a.lastGood = some o → ∃ o', b.lastGood = some o' ∧ (o' = o ∨ o.frameSeq < o'.frameSeq ∧ o.observedAt ≤ o'.observedAt)

section Runs
variable {α : Type} {a b c : FieldState α} {seq seq' : FrameSeq} {clock now : MonotonicMillis}

theorem Renewed.trans (h : Renewed a b) (h' : Renewed b c) : Renewed a c := by
  intro o ho
  obtain ⟨o', ho', hnew⟩ := h o ho
  obtain ⟨o'', ho'', hnew'⟩ := h' o' ho'
  refine ⟨o'', ho'', ?_⟩
  rcases hnew with rfl | ⟨hseq, htime⟩
  · exact hnew'
  · rcases hnew' with rfl | ⟨hseq', htime'⟩
    · exact .inr ⟨hseq, htime⟩
    · exact .inr ⟨hseq.trans hseq', htime.trans htime'⟩

theorem Within.renewed (h : Within seq clock a a) (hclock : clock ≤ now) (hmoved : Moved seq seq' now a b) : Renewed a b := by
  intro o ho
  rcases hmoved with hsame | ⟨o', ho', hseq, -, htime⟩
  · exact ⟨o, hsame.trans ho, .inl rfl⟩
  · obtain ⟨hle, hbefore⟩ := h o ho
    exact ⟨o', ho', .inr ⟨hle.trans_lt hseq, by rw [htime]; exact hbefore.trans hclock⟩⟩

theorem Within.moved (h : Within seq clock a a) (hseq : seq ≤ seq') (hclock : clock ≤ now) (hmoved : Moved seq seq' now a b) :
    Within seq' now b b := by
  intro o ho
  rcases hmoved with hsame | ⟨o', ho', -, hle, htime⟩
  · obtain ⟨hle, hbefore⟩ := h o (hsame.symm.trans ho)
    exact ⟨hle.trans hseq, hbefore.trans hclock⟩
  · obtain rfl := Option.some.inj (ho'.symm.trans ho)
    exact ⟨hle, htime.le⟩

end Runs

/-- What a session keeps of its state from one moment of its life to a later one. -/
structure Kept (s t : ReceiverState) : Prop where
  current : ∀ f, (t.fieldAt f).Current → ∃ o, (t.fieldAt f).lastGood = some o ∧ t.epoch = some o.epoch
  renewed : s.Fields Renewed t
  revision : s.revision ≤ t.revision
  changed : t ≠ s → s.revision < t.revision

namespace Timed

/-- A fresh session. -/
def start (receiver : ReceiverId) : Timed := { feed := Feed.new receiver }

/-- Nothing is known that the session could not have been told. -/
structure Sound (s : Timed) : Prop where
  reached : s.feed.Reached
  within : s.feed.state.Fields (Within s.feed.frameSeq s.clock) s.feed.state

theorem sound_start (receiver : ReceiverId) : (start receiver).Sound := by
  refine ⟨.new receiver, ?_⟩
  constructor <;>
  · intro o ho
    cases ho

theorem Sound.step {s : Timed} (h : s.Sound) (act : ℕ × FeedOp) :
    (s.step act).Sound ∧ s.feed.state.Fields Renewed (s.step act).feed.state ∧
      s.feed.state.Advances (s.step act).feed.state := by
  have hahead := ahead_apply act.2 s.feed (s.clock + act.1)
  have hclock : s.clock ≤ s.clock + act.1 := Nat.le_add_right _ _
  have hw := h.within
  have hf := hahead.fields
  refine ⟨⟨reached_apply act.2 h.reached _, ?_⟩, ?_, hahead.advances⟩
  · exact ⟨hw.systemPower.moved hahead.seq hclock hf.systemPower, hw.power.moved hahead.seq hclock hf.power,
      hw.source.moved hahead.seq hclock hf.source, hw.volume.moved hahead.seq hclock hf.volume,
      hw.mute.moved hahead.seq hclock hf.mute, hw.soundMode.moved hahead.seq hclock hf.soundMode,
      hw.zone2Power.moved hahead.seq hclock hf.zone2Power⟩
  · exact ⟨hw.systemPower.renewed hclock hf.systemPower, hw.power.renewed hclock hf.power,
      hw.source.renewed hclock hf.source, hw.volume.renewed hclock hf.volume, hw.mute.renewed hclock hf.mute,
      hw.soundMode.renewed hclock hf.soundMode, hw.zone2Power.renewed hclock hf.zone2Power⟩

theorem Sound.run {s : Timed} (h : s.Sound) (acts : List (ℕ × FeedOp)) :
    (s.run acts).Sound ∧ s.feed.state.Fields Renewed (s.run acts).feed.state ∧
      s.feed.state.Advances (s.run acts).feed.state := by
  induction acts generalizing s with
  | nil => exact ⟨h, ReceiverState.fields_refl (fun a o ho => ⟨o, ho, .inl rfl⟩) _, .inl rfl⟩
  | cons act acts ih =>
    obtain ⟨hsound, hrenewed, hadvances⟩ := h.step act
    obtain ⟨hsound', hrenewed', hadvances'⟩ := ih hsound
    rw [run_cons]
    exact ⟨hsound', hrenewed.comp Renewed.trans hrenewed', hadvances.trans hadvances'⟩

/-- **The state of a session**, at any two moments of its life: what is current was observed on the established
connection, a last good value gives way to a later one only, and a change shows in the revision. -/
theorem kept_run (receiver : ReceiverId) (acts rest : List (ℕ × FeedOp)) :
    Kept ((start receiver).run acts).feed.state ((start receiver).run (acts ++ rest)).feed.state := by
  have hbefore := ((sound_start receiver).run acts).1
  rw [run_append]
  obtain ⟨hafter, hrenewed, hadvances⟩ := hbefore.run rest
  refine ⟨fun f hcur => hafter.reached.valid.current f hcur, hrenewed, hadvances.revision_le, fun hne => ?_⟩
  exact hadvances.resolve_left hne

end Timed

end DenonAvr.Session
