import DenonAvr.Session.Operate

/-!
# What is known when the command is dispatched

Before it writes, `operate` asks for the target and for every field of the precondition, and compares. The
question here is whether each of these fields was really observed on the way, or shows no usable value.

It is, except after one kind of reply: a line that belongs to the queried family and carries no observation of
it (malformed, unknown, the volume ceiling) while the cached value of the field is current (`Silent`). The
query counts as answered and the cached value stays. Only a new connection noticed later on the way to the
write makes up for it, because it makes every field stale. `vouched_iff` says that nothing else can go wrong.
-/

namespace DenonAvr.Session

open Domain Protocol Library

/-! ### Fields -/

/-- The fields a call has to re-observe: its target and those its precondition names. -/
def Named (request : OperationRequest) (f : CoreField) : Prop :=
  f = request.intent.field ∨ ∃ p, request.precondition = some p ∧ f ∈ p.fields

/-- An observation of a line that answered a query of the run, from behind the line with which the run began. -/
def Answered (request : OperationRequest) (cycle : SyncCycleId) (feed : Feed) (acts : List CallAction)
    (o : Observation CoreFrame) : Prop :=
  feed.frameSeq < o.frameSeq ∧ ∃ k m line generation now replyClosed expired,
    (operate request cycle feed).Took { request, cycle, feed } acts k m
      (.answer (.ok line) generation now replyClosed expired) ∧
    o.frameSeq = m.feed.frameSeq + 1 ∧ observationOf line = some o.value

/-- The last good value of the field in `reached` is what a line says that was received during the call. -/
def Reobserved (request : OperationRequest) (cycle : SyncCycleId) (feed : Feed) (acts : List CallAction) (reached : Feed)
    (f : CoreField) : Prop :=
  ∃ o, (reached.state.fieldAt f).lastGood = some o ∧ o.value.field = f ∧ Answered request cycle feed acts o

/-- The field was re-observed, or it has no usable value and the precondition, where it names the field, says
so. -/
def Vouched (request : OperationRequest) (cycle : SyncCycleId) (feed : Feed) (acts : List CallAction) (reached : Feed)
    (f : CoreField) : Prop :=
  Reobserved request cycle feed acts reached f ∨
    ¬ reached.Current f ∧ ∀ p b, request.precondition = some p → p.baseline f = some b → b = .noUsableValue f

/-- A current value from before line `since`: the cache. -/
def Unseen (since : FrameSeq) (feed : Feed) (f : CoreField) : Prop :=
  feed.Current f ∧ ∀ o, (feed.fresh f).1 = some o → o.frameSeq ≤ since

theorem usable_of_not_current {α : Type} {field : FieldState α} {value : α → FieldValue}
    (h : ¬ field.Current) : usable field value = none := by
  unfold usable
  split
  · rename_i validUntil _ hvalidity _
    exact absurd ⟨validUntil, hvalidity⟩ h
  · rfl

/-- A field that is not current is captured as having no usable value. -/
theorem capture_of_not_current {feed : Feed} {f : CoreField} (h : ¬ feed.Current f) :
    FieldBaseline.capture feed.state f = .noUsableValue f := by
  have hnone : FieldBaseline.usableIn feed.state f = none := by
    cases f <;> simp only [FieldBaseline.usableIn] <;> refine usable_of_not_current ?_ <;> exact h
  simp [FieldBaseline.capture, hnone]

/-! ### The steps before the write -/

/-- The fields still to be re-observed before the command can be sent; `none` when there will be no command
any more, or it has been sent. -/
def pendingAt (request : OperationRequest) : Pc → Option (List CoreField)
  | .start | .ask .preflight | .await .preflight => some (request.intent.field :: request.verifyFields)
  | .ask (.verify field rest) | .await (.verify field rest) => some (field :: rest)
  | .send _ => some []
  | .ask (.ambiguous _) | .ask .confirm | .await (.ambiguous _) | .await .confirm => none
  | .sent _ | .pause | .done _ => none

def Call.pending (call : Call) : Option (List CoreField) := pendingAt call.request call.pc

/-- A query is answered by a line without an observation while the field it is about is current. -/
def Silent (call : Call) (a : CallAction) (f : CoreField) : Prop :=
  ∃ purpose line generation now replyClosed expired,
    call.pc = .await purpose ∧ call.fieldOf purpose = f ∧
      a = .answer (.ok line) generation now replyClosed expired ∧ observationOf line = none ∧
        (call.feed.synchronizeGeneration generation).Current f

/-- A step of the call finds a new generation. -/
def Notices (call : Call) (a : CallAction) : Prop :=
  ∃ generation, generation + 1 ≠ call.feed.epoch ∧
    (a = .ask generation ∨
      ∃ line now replyClosed expired, a = .answer (.ok line) generation now replyClosed expired)

section Steps
variable {call call' : Call} {a : CallAction} {fs : List CoreField}

theorem mem_target_cons_verifyFields {request : OperationRequest} {f : CoreField} :
    f ∈ request.intent.field :: request.verifyFields ↔ Named request f := by
  unfold Named OperationRequest.verifyFields
  cases request.precondition with
  | none => simp
  | some p => by_cases hf : f = request.intent.field <;> simp [hf]

theorem nodup_target_cons_verifyFields (request : OperationRequest) :
    (request.intent.field :: request.verifyFields).Nodup := by
  unfold OperationRequest.verifyFields
  cases request.precondition with
  | none => simp
  | some p =>
    have hall : CoreField.all.Nodup := by decide
    rw [Option.elim_some, List.nodup_cons]
    exact ⟨by simp, (hall.filter _).filter _⟩

/-- Marks change nothing that freshness is about. -/
theorem markAll_markConverging (cycle : SyncCycleId) (now : MonotonicMillis) (fields : List CoreField)
    (feed : Feed) :
    let feed' := fields.foldl (fun feed field => feed.markConverging field .localControl cycle now) feed
    (feed.Valid → feed'.Valid) ∧ feed'.epoch = feed.epoch ∧ feed'.frameSeq = feed.frameSeq ∧
      ∀ f, feed'.fresh f = feed.fresh f := by
  induction fields generalizing feed with
  | nil => exact ⟨id, rfl, rfl, fun _ => rfl⟩
  | cons field fields ih =>
    obtain ⟨h1, h2, h3, h4⟩ := ih (feed.markConverging field .localControl cycle now)
    exact ⟨fun h => h1 (h.markConverging field .localControl cycle now), h2, h3,
      fun f => (h4 f).trans Feed.fresh_markConverging⟩

/-- How a call comes one step closer to its write: it begins, it asks, or the field at the head of the pending
ones is answered. -/
inductive Progress (call : Call) (a : CallAction) (call' : Call) (fs : List CoreField) : Prop
  | begin (hpending : call.pending = some fs) (hask : ∀ generation, a ≠ .ask generation)
      (hanswer : ∀ result generation now replyClosed expired,
        a ≠ .answer result generation now replyClosed expired)
      (hvalid : call.feed.Valid → call'.feed.Valid) (hepoch : call'.feed.epoch = call.feed.epoch)
      (hseq : call'.feed.frameSeq = call.feed.frameSeq)
      (hfresh : ∀ f, call'.feed.fresh f = call.feed.fresh f)
  | ask (generation : ℕ) (ha : a = .ask generation) (hpending : call.pending = some fs)
      (hfeed : call'.feed = call.feed.synchronizeGeneration generation)
  | answer (f : CoreField) (purpose : Purpose) (line : String) (generation : ℕ) (now : MonotonicMillis)
      (replyClosed expired : Bool) (ha : a = .answer (.ok line) generation now replyClosed expired)
      (hpc : call.pc = .await purpose) (hfield : call.fieldOf purpose = f)
      (hmatches : responseMatches (familyOf f) line = true) (hpending : call.pending = some (f :: fs))
      (hfeed : call'.feed = ((call.feed.synchronizeGeneration generation).reduceLine now line true).1)

/-- A call that goes on to the write has compared its precondition and kept its feed. -/
structure Onward (call call' : Call) (fs : List CoreField) : Prop where
  request : call'.request = call.request
  feed : call'.feed = call.feed
  pending : call'.pending = some fs
  holds : ∀ command, call'.pc = .send command → ∀ p, call.request.precondition = some p →
    p.mismatch call.feed.state = none

theorem onward_beforeWrite {now : MonotonicMillis} {replyClosed : Bool}
    (hholds : ∀ p, call.request.precondition = some p → p.mismatch call.feed.state = none)
    (h : (call.beforeWrite now replyClosed).pending = some fs) :
    Onward call (call.beforeWrite now replyClosed) [] ∧ fs = [] := by
  unfold Call.beforeWrite at h ⊢
  split_ifs at h ⊢ with hthere hclosed
  · cases h
  · cases h
  · cases hencode : encode call.request.intent with
    | error error =>
      simp only [hencode] at h
      cases h
    | ok command =>
      simp only [hencode] at h
      cases h
      exact ⟨⟨rfl, rfl, rfl, fun _ _ => hholds⟩, rfl⟩

theorem onward_verifyNext {rest : List CoreField} {now : MonotonicMillis} {replyClosed : Bool}
    (h : (call.verifyNext rest now replyClosed).pending = some fs) :
    Onward call (call.verifyNext rest now replyClosed) rest ∧ fs = rest := by
  cases rest with
  | cons field rest =>
    cases h
    exact ⟨⟨rfl, rfl, rfl, fun command hsend => by cases hsend⟩, rfl⟩
  | nil =>
    unfold Call.verifyNext at h ⊢
    dsimp only at h ⊢
    cases hmismatch : call.request.precondition.bind (·.mismatch call.feed.state) with
    | some mismatch =>
      simp only [hmismatch] at h
      cases h
    | none =>
      simp only [hmismatch] at h
      refine onward_beforeWrite (fun p hp => ?_) h
      simpa [hp] using hmismatch

theorem onward_queryAnswered {purpose : Purpose} {now : MonotonicMillis} {replyClosed expired : Bool}
    (hpc : call.pc = .await purpose)
    (h : (call.queryAnswered purpose now replyClosed expired).pending = some fs) :
    Onward call (call.queryAnswered purpose now replyClosed expired) fs ∧
      call.pending = some (call.fieldOf purpose :: fs) := by
  unfold Call.pending
  rw [hpc]
  cases purpose with
  | preflight =>
    obtain ⟨honward, rfl⟩ := onward_verifyNext h
    exact ⟨honward, rfl⟩
  | verify field rest =>
    obtain ⟨honward, rfl⟩ := onward_verifyNext h
    exact ⟨honward, rfl⟩
  | ambiguous error =>
    simp only [Call.queryAnswered] at h
    split_ifs at h <;> cases h
  | confirm =>
    simp only [Call.queryAnswered] at h
    split_ifs at h <;> cases h

theorem pending_queryFailed {purpose : Purpose} {error : AvrSessionError} :
    (call.queryFailed purpose error).pending = none := by
  cases purpose <;> rfl

theorem pending_dispatched {result : Except AvrSessionError Unit} :
    (call.dispatched result).pending = none := by
  cases result with
  | ok u => rfl
  | error error => cases error <;> rfl

/-- **The step lemma**: a step after which there may still be a write is progress towards it. -/
theorem progress_of_step (hstep : call.step a = some call') (hpending : call'.pending = some fs) :
    Progress call a call' fs ∧ call'.request = call.request ∧
      ∀ command, call'.pc = .send command → ∀ p, call'.request.precondition = some p →
        p.mismatch call'.feed.state = none := by
  cases callStep_of_step hstep with
  | begin now replyClosed hpc =>
    unfold Call.begin at hpending ⊢
    split_ifs at hpending ⊢ with hclosed
    · cases hpending
    · cases hadmitted : admitIntent call.request.intent with
      | error reason =>
        simp only [hadmitted] at hpending
        cases hpending
      | ok u =>
        simp only [hadmitted] at hpending
        obtain ⟨hvalid, hepoch, hseq, hfresh⟩ :=
          markAll_markConverging call.cycle now (dependencyFields call.target) call.feed
        refine ⟨.begin ?_ (fun _ h => by cases h) (fun _ _ _ _ _ h => by cases h) hvalid hepoch hseq hfresh,
          rfl, fun command hsend => by cases hsend⟩
        unfold Call.pending
        rw [hpc]
        exact hpending
  | ask generation purpose hpc =>
    refine ⟨.ask generation rfl ?_ rfl, rfl, fun command hsend => by cases hsend⟩
    unfold Call.pending
    rw [hpc]
    cases purpose <;> exact hpending
  | failed =>
    rw [pending_queryFailed] at hpending
    cases hpending
  | answered purpose line generation now replyClosed expired hpc hanswers =>
    have hawait : { call with
        feed := ((call.feed.synchronizeGeneration generation).reduceLine now line true).1 }.pc = .await purpose := hpc
    obtain ⟨honward, hhead⟩ := onward_queryAnswered hawait hpending
    refine ⟨.answer (call.fieldOf purpose) purpose line generation now replyClosed expired rfl hpc rfl
      hanswers hhead honward.feed, honward.request, fun command hsend p hp => ?_⟩
    rw [honward.feed]
    exact honward.holds command hsend p (honward.request ▸ hp)
  | sent =>
    rw [pending_dispatched] at hpending
    cases hpending
  | send | wake | event | stopped => cases hpending

end Steps

/-! ### Freshness along the way -/

section Freshness
variable {feed : Feed} {f : CoreField} {since : FrameSeq} {generation : ℕ}

/-- Binding the feed to a connection keeps every value, and keeps a cached one current only if the connection
is the same. -/
theorem fresh_synchronizeGeneration_fst :
    ((feed.synchronizeGeneration generation).fresh f).1 = (feed.fresh f).1 := by
  by_cases h : generation + 1 = feed.epoch
  · rw [Feed.synchronizeGeneration_of_eq h]
  · rw [(Feed.synchronizeGeneration_of_ne feed h).2.2.2 f]
    split_ifs <;> rfl

theorem frameSeq_synchronizeGeneration :
    (feed.synchronizeGeneration generation).frameSeq = feed.frameSeq := by
  by_cases h : generation + 1 = feed.epoch
  · rw [Feed.synchronizeGeneration_of_eq h]
  · exact (Feed.synchronizeGeneration_of_ne feed h).2.2.1

theorem not_current_synchronizeGeneration (hvalid : feed.Valid) (h : generation + 1 ≠ feed.epoch) :
    ¬ (feed.synchronizeGeneration generation).Current f := by
  obtain ⟨-, -, -, hfresh⟩ := Feed.synchronizeGeneration_of_ne feed h
  by_cases hsome : feed.state.epoch.isSome
  · exact hvalid.not_current_of_lost (by rw [hfresh, if_pos hsome])
  · have hnone : feed.state.epoch = none := by simpa using hsome
    rw [Feed.current_iff, hfresh, if_neg hsome]
    exact hvalid.not_current hnone

theorem unseen_synchronizeGeneration (hvalid : feed.Valid) :
    Unseen since (feed.synchronizeGeneration generation) f ↔
      Unseen since feed f ∧ generation + 1 = feed.epoch := by
  by_cases h : generation + 1 = feed.epoch
  · rw [Feed.synchronizeGeneration_of_eq h]
    exact ⟨fun hu => ⟨hu, h⟩, fun hu => hu.1⟩
  · exact ⟨fun hu => absurd hu.1 (not_current_synchronizeGeneration hvalid h), fun hu => absurd hu.2 h⟩

theorem unseen_congr {feed feed' : Feed} (h : feed'.fresh f = feed.fresh f) :
    Unseen since feed' f ↔ Unseen since feed f := by
  unfold Unseen
  rw [Feed.current_iff, Feed.current_iff, h]

/-- The reply to the query of `f` leaves the cache in place exactly when it carries no observation. -/
theorem unseen_reduceLine {now : MonotonicMillis} {line : String} (hvalid : feed.Valid)
    (hmatches : responseMatches (familyOf f) line = true) (hsince : since ≤ feed.frameSeq)
    (hold : ∀ o, (feed.fresh f).1 = some o → o.frameSeq ≤ since) :
    Unseen since (feed.reduceLine now line true).1 f ↔ observationOf line = none ∧ feed.Current f := by
  cases hobs : observationOf line with
  | none =>
    rw [unseen_congr (Feed.fresh_reduceLine_of_none hobs)]
    exact ⟨fun hu => ⟨rfl, hu.1⟩, fun h => ⟨h.2, hold⟩⟩
  | some frame =>
    refine ⟨fun hu => False.elim ?_, fun h => by cases h.1⟩
    obtain rfl : frame.field = f := field_of_responseMatches hmatches hobs
    by_cases haccepted : feed.state.epoch = some feed.epoch
    · obtain ⟨⟨validUntil, hcur⟩, hle⟩ := hu
      rcases Feed.fresh_reduceLine_of_accepted now true hobs haccepted with heq | ⟨raw, heq⟩
      · have hnew := hle _ (by rw [heq])
        exact absurd (hnew.trans hsince) (not_le.mpr (Nat.lt_succ_self _))
      · have hcur' : ((feed.reduceLine now line true).1.fresh frame.field).2 = .current validUntil := hcur
        rw [heq] at hcur'
        cases hcur'
    · -- Nothing is established, so nothing is current and the reply is not accepted.
      rw [unseen_congr (Feed.fresh_reduceLine_of_rejected haccepted)] at hu
      have hnone : feed.state.epoch = none := by
        cases hepoch : feed.state.epoch with
        | none => rfl
        | some e => exact absurd (by rw [hepoch, hvalid.epoch e hepoch]) haccepted
      exact hvalid.not_current hnone hu.1

/-- The reply to the query of `f` says nothing about another field. -/
theorem fresh_reduceLine_other {now : MonotonicMillis} {line : String} {g : CoreField}
    (hmatches : responseMatches (familyOf f) line = true) (hne : g ≠ f) :
    (feed.reduceLine now line true).1.fresh g = feed.fresh g := by
  cases hobs : observationOf line with
  | none => exact Feed.fresh_reduceLine_of_none hobs
  | some frame =>
    apply Feed.fresh_reduceLine_of_ne hobs
    rw [field_of_responseMatches hmatches hobs]
    exact hne

end Freshness

/-! ### Runs up to the write -/

section Runs
variable {request : OperationRequest} {cycle : SyncCycleId} {feed : Feed} {acts : List CallAction}
  {call call' : Call} {a : CallAction} {fs : List CoreField} {f : CoreField}

/-- The run has a silent step for `f` and notices no new generation behind it. -/
def Unremedied (request : OperationRequest) (cycle : SyncCycleId) (feed : Feed) (acts : List CallAction)
    (f : CoreField) : Prop :=
  ∃ k m a, (operate request cycle feed).Took { request, cycle, feed } acts k m a ∧ Silent m a f ∧
    ∀ k' m' a', k < k' → (operate request cycle feed).Took { request, cycle, feed } acts k' m' a' →
      ¬ Notices m' a'

/-- One more step is silent itself, or leaves an older silent step unremedied. -/
theorem unremedied_concat
    (hexec : (operate request cycle feed).exec { request, cycle, feed } acts = some call) :
    Unremedied request cycle feed (acts ++ [a]) f ↔
      Silent call a f ∨ Unremedied request cycle feed acts f ∧ ¬ Notices call a := by
  constructor
  · rintro ⟨k, m, b, htook, hsilent, hlater⟩
    rcases (Machine.took_concat _).mp htook with hold | ⟨rfl, rfl, hm⟩
    · refine .inr ⟨⟨k, m, b, hold, hsilent, fun k' m' a' hk htook' => ?_⟩, ?_⟩
      · exact hlater k' m' a' hk ((Machine.took_concat _).mpr (.inl htook'))
      · exact hlater acts.length call a hold.lt ((Machine.took_concat _).mpr (.inr ⟨rfl, rfl, hexec⟩))
    · rw [hexec] at hm
      cases hm
      exact .inl hsilent
  · rintro (hsilent | ⟨⟨k, m, b, hold, hsilent, hlater⟩, hnotice⟩)
    · refine ⟨acts.length, call, a, (Machine.took_concat _).mpr (.inr ⟨rfl, rfl, hexec⟩), hsilent,
        fun k' m' a' hk htook => ?_⟩
      have hlt := htook.lt
      rw [List.length_append, List.length_singleton] at hlt
      omega
    · refine ⟨k, m, b, (Machine.took_concat _).mpr (.inl hold), hsilent, fun k' m' a' hk htook => ?_⟩
      rcases (Machine.took_concat _).mp htook with hold' | ⟨rfl, rfl, hm⟩
      · exact hlater k' m' a' hk hold'
      · rw [hexec] at hm
        cases hm
        exact hnotice

theorem Answered.concat {o : Observation CoreFrame} (h : Answered request cycle feed acts o) (a : CallAction) :
    Answered request cycle feed (acts ++ [a]) o := by
  obtain ⟨hlt, k, m, line, generation, now, replyClosed, expired, htook, hseq, hobs⟩ := h
  exact ⟨hlt, k, m, line, generation, now, replyClosed, expired, (Machine.took_concat _).mpr (.inl htook), hseq, hobs⟩

/-- What a run keeps until the command is sent, with the fields `fs` still to be asked for. -/
structure Tracked (request : OperationRequest) (cycle : SyncCycleId) (feed : Feed) (acts : List CallAction)
    (call : Call) (fs : List CoreField) : Prop where
  valid : call.feed.Valid
  since : feed.frameSeq ≤ call.feed.frameSeq
  /-- What is newer than the call was answered in it. -/
  sourced : ∀ f o, (call.feed.fresh f).1 = some o → feed.frameSeq < o.frameSeq →
    o.value.field = f ∧ Answered request cycle feed acts o
  nodup : fs.Nodup
  named : ∀ f ∈ fs, Named request f
  old : ∀ f ∈ fs, ∀ o, (call.feed.fresh f).1 = some o → o.frameSeq ≤ feed.frameSeq
  quiet : ∀ f ∈ fs, ¬ Unremedied request cycle feed acts f
  answered : ∀ f, Named request f → f ∉ fs →
    (Unseen feed.frameSeq call.feed f ↔ Unremedied request cycle feed acts f)

theorem tracked_init (hvalid : feed.Valid) :
    Tracked request cycle feed [] { request, cycle, feed }
      (request.intent.field :: request.verifyFields) := by
  refine ⟨hvalid, le_rfl, fun f o ho hlt => absurd (hvalid.seq f o ho) (not_le.mpr hlt),
    nodup_target_cons_verifyFields request, ?_, ?_, ?_, ?_⟩
  · exact fun f hf => mem_target_cons_verifyFields.mp hf
  · exact fun f _ o ho => hvalid.seq f o ho
  · rintro f - ⟨k, m, a, htook, -⟩
    exact absurd htook.lt (Nat.not_lt_zero k)
  · exact fun f hnamed hf => absurd (mem_target_cons_verifyFields.mpr hnamed) hf

theorem Tracked.begin (h : Tracked request cycle feed acts call fs)
    (hexec : (operate request cycle feed).exec { request, cycle, feed } acts = some call)
    (hask : ∀ generation, a ≠ .ask generation)
    (hanswer : ∀ result generation now replyClosed expired,
      a ≠ .answer result generation now replyClosed expired)
    (hvalid : call'.feed.Valid) (hseq : call'.feed.frameSeq = call.feed.frameSeq)
    (hfresh : ∀ f, call'.feed.fresh f = call.feed.fresh f) :
    Tracked request cycle feed (acts ++ [a]) call' fs := by
  have hun : ∀ f, Unremedied request cycle feed (acts ++ [a]) f ↔ Unremedied request cycle feed acts f := by
    intro f
    rw [unremedied_concat hexec]
    constructor
    · rintro (⟨_, _, _, _, _, _, -, -, ha, -⟩ | ⟨hu, -⟩)
      · exact absurd ha (hanswer _ _ _ _ _)
      · exact hu
    · refine fun hu => .inr ⟨hu, ?_⟩
      rintro ⟨generation, -, ha | ⟨_, _, _, _, ha⟩⟩
      · exact hask generation ha
      · exact hanswer _ _ _ _ _ ha
  refine ⟨hvalid, hseq.ge.trans' h.since, fun f o ho hlt => ?_, h.nodup, h.named, ?_, ?_, ?_⟩
  · obtain ⟨hf, hanswered⟩ := h.sourced f o (hfresh f ▸ ho) hlt
    exact ⟨hf, hanswered.concat a⟩
  · intro f hf o ho
    exact h.old f hf o (hfresh f ▸ ho)
  · intro f hf hu
    exact h.quiet f hf ((hun f).mp hu)
  · intro f hnamed hf
    rw [unseen_congr (hfresh f), hun]
    exact h.answered f hnamed hf

theorem Tracked.ask (h : Tracked request cycle feed acts call fs)
    (hexec : (operate request cycle feed).exec { request, cycle, feed } acts = some call) {generation : ℕ}
    (hfeed : call'.feed = call.feed.synchronizeGeneration generation) :
    Tracked request cycle feed (acts ++ [.ask generation]) call' fs := by
  have hnotice : Notices call (.ask generation) ↔ generation + 1 ≠ call.feed.epoch := by
    constructor
    · rintro ⟨generation', hne, ha | ⟨_, _, _, _, ha⟩⟩
      · cases ha
        exact hne
      · cases ha
    · exact fun hne => ⟨generation, hne, .inl rfl⟩
  have hun : ∀ f, Unremedied request cycle feed (acts ++ [.ask generation]) f ↔
      Unremedied request cycle feed acts f ∧ generation + 1 = call.feed.epoch := by
    intro f
    rw [unremedied_concat hexec, hnotice, not_not]
    constructor
    · rintro (⟨_, _, _, _, _, _, -, -, ha, -⟩ | hu)
      · cases ha
      · exact hu
    · exact .inr
  refine ⟨hfeed ▸ h.valid.synchronizeGeneration generation, ?_, fun f o ho hlt => ?_, h.nodup, h.named, ?_, ?_, ?_⟩
  · rw [hfeed, frameSeq_synchronizeGeneration]
    exact h.since
  · rw [hfeed, fresh_synchronizeGeneration_fst] at ho
    obtain ⟨hf, hanswered⟩ := h.sourced f o ho hlt
    exact ⟨hf, hanswered.concat _⟩
  · intro f hf o ho
    rw [hfeed, fresh_synchronizeGeneration_fst] at ho
    exact h.old f hf o ho
  · intro f hf hu
    exact h.quiet f hf ((hun f).mp hu).1
  · intro f hnamed hf
    rw [hfeed, unseen_synchronizeGeneration h.valid, hun, h.answered f hnamed hf]

theorem Tracked.answer (h : Tracked request cycle feed acts call (f :: fs))
    (hexec : (operate request cycle feed).exec { request, cycle, feed } acts = some call)
    {purpose : Purpose} {line : String} {generation : ℕ} {now : MonotonicMillis}
    {replyClosed expired : Bool} (ha : a = .answer (.ok line) generation now replyClosed expired)
    (hpc : call.pc = .await purpose) (hfield : call.fieldOf purpose = f)
    (hmatches : responseMatches (familyOf f) line = true)
    (hfeed : call'.feed = ((call.feed.synchronizeGeneration generation).reduceLine now line true).1) :
    Tracked request cycle feed (acts ++ [a]) call' fs := by
  subst ha
  obtain ⟨hhead, htail⟩ := List.nodup_cons.mp h.nodup
  have hvalid := h.valid.synchronizeGeneration generation
  have hnotice : Notices call (.answer (.ok line) generation now replyClosed expired) ↔
      generation + 1 ≠ call.feed.epoch := by
    constructor
    · rintro ⟨generation', hne, ha | ⟨_, _, _, _, ha⟩⟩
      · cases ha
      · cases ha
        exact hne
    · exact fun hne => ⟨generation, hne, .inr ⟨_, _, _, _, rfl⟩⟩
  have hsilent : ∀ g, Silent call (.answer (.ok line) generation now replyClosed expired) g ↔
      g = f ∧ observationOf line = none ∧ (call.feed.synchronizeGeneration generation).Current f := by
    intro g
    constructor
    · rintro ⟨purpose', _, _, _, _, _, hpc', hfield', ha, hobs, hcur⟩
      cases ha
      rw [hpc] at hpc'
      cases hpc'
      rw [hfield] at hfield'
      cases hfield'
      exact ⟨rfl, hobs, hcur⟩
    · rintro ⟨rfl, hobs, hcur⟩
      exact ⟨purpose, line, generation, now, replyClosed, expired, hpc, hfield, rfl, hobs, hcur⟩
  have hun : ∀ g, Unremedied request cycle feed
        (acts ++ [.answer (.ok line) generation now replyClosed expired]) g ↔
      (g = f ∧ observationOf line = none ∧ (call.feed.synchronizeGeneration generation).Current f) ∨
        Unremedied request cycle feed acts g ∧ generation + 1 = call.feed.epoch := by
    intro g
    rw [unremedied_concat hexec, hsilent, hnotice, not_not]
  have hother : ∀ g, g ≠ f →
      call'.feed.fresh g = (call.feed.synchronizeGeneration generation).fresh g := by
    intro g hne
    rw [hfeed, fresh_reduceLine_other hmatches hne]
  refine ⟨hfeed ▸ hvalid.reduceLine now line true, ?_, fun g o ho hlt => ?_, htail, ?_, ?_, ?_, ?_⟩
  · rw [hfeed, Feed.reduceLine_frameSeq, frameSeq_synchronizeGeneration]
    exact h.since.trans (Nat.le_succ _)
  · rw [hfeed] at ho
    rcases Feed.good_reduceLine ho with hgood | ⟨frame, hobs, hg, rfl⟩
    · rw [fresh_synchronizeGeneration_fst] at hgood
      obtain ⟨hg, hanswered⟩ := h.sourced g o hgood hlt
      exact ⟨hg, hanswered.concat _⟩
    · refine ⟨hg, hlt, acts.length, call, line, generation, now, replyClosed, expired,
        (Machine.took_concat _).mpr (.inr ⟨rfl, rfl, hexec⟩), ?_, hobs⟩
      exact congrArg (· + 1) frameSeq_synchronizeGeneration
  · exact fun g hg => h.named g (List.mem_cons_of_mem _ hg)
  · intro g hg o ho
    have hne : g ≠ f := fun heq => hhead (heq ▸ hg)
    rw [hother g hne, fresh_synchronizeGeneration_fst] at ho
    exact h.old g (List.mem_cons_of_mem _ hg) o ho
  · intro g hg hu
    rcases (hun g).mp hu with ⟨rfl, -⟩ | ⟨hu, -⟩
    · exact hhead hg
    · exact h.quiet g (List.mem_cons_of_mem _ hg) hu
  · intro g hnamed hg
    rw [hun]
    by_cases hgf : g = f
    · subst hgf
      have hnone : ¬ Unremedied request cycle feed acts g := h.quiet g List.mem_cons_self
      rw [hfeed, unseen_reduceLine hvalid hmatches]
      · simp [hnone]
      · rw [frameSeq_synchronizeGeneration]
        exact h.since
      · intro o ho
        rw [fresh_synchronizeGeneration_fst] at ho
        exact h.old g List.mem_cons_self o ho
    · rw [unseen_congr (hother g hgf), unseen_synchronizeGeneration h.valid,
        h.answered g hnamed (by simp [hgf, hg])]
      simp [hgf]

/-- When the precondition holds, a field is vouched for exactly if no cached value stands in for it. -/
theorem vouched_iff_not_unseen (h : Tracked request cycle feed acts call fs)
    (hholds : ∀ p, request.precondition = some p → p.mismatch call.feed.state = none) :
    Vouched request cycle feed acts call.feed f ↔ ¬ Unseen feed.frameSeq call.feed f := by
  constructor
  · rintro (⟨o, ho, -, hlt, -⟩ | ⟨hcur, -⟩) ⟨hcur', hold⟩
    · exact absurd (hold o ho) (not_le.mpr hlt)
    · exact hcur hcur'
  · intro hseen
    by_cases hcur : call.feed.Current f
    · obtain ⟨o, ho, -⟩ := h.valid.current f hcur
      have hlt : feed.frameSeq < o.frameSeq := by
        by_contra hle
        refine hseen ⟨hcur, fun o' ho' => ?_⟩
        rw [ho] at ho'
        cases ho'
        exact not_lt.mp hle
      exact .inl ⟨o, ho, h.sourced f o ho hlt⟩
    · refine .inr ⟨hcur, fun p b hp hb => ?_⟩
      rw [(Precondition.mismatch_eq_none_iff.mp (hholds p hp)).2 f b hb]
      exact capture_of_not_current hcur

/-- The run lemma: every run that may still come to a write is tracked. -/
theorem tracked_of_exec (hvalid : feed.Valid)
    (hexec : (operate request cycle feed).exec { request, cycle, feed } acts = some call)
    (hpending : call.pending = some fs) :
    call.request = request ∧ Tracked request cycle feed acts call fs ∧
      ∀ command, call.pc = .send command → ∀ p, request.precondition = some p →
        p.mismatch call.feed.state = none := by
  revert fs
  refine Machine.exec_induction (operate request cycle feed)
    (P := fun acts call => ∀ {fs}, call.pending = some fs → call.request = request ∧
      Tracked request cycle feed acts call fs ∧
        ∀ command, call.pc = .send command → ∀ p, request.precondition = some p →
          p.mismatch call.feed.state = none) ?_ ?_ hexec
  · intro fs hfs
    cases hfs
    exact ⟨rfl, tracked_init hvalid, fun command hsend => by cases hsend⟩
  · intro acts call a call' hexec ih hstep fs hfs
    obtain ⟨hprogress, hrequest, hholds⟩ := progress_of_step hstep hfs
    cases hprogress with
    | begin hpending hask hanswer hv hepoch hseq hfresh =>
      obtain ⟨rfl, htracked, -⟩ := ih hpending
      refine ⟨hrequest, ?_, hrequest ▸ hholds⟩
      exact htracked.begin hexec hask hanswer (hv htracked.valid) hseq hfresh
    | ask generation ha hpending hfeed =>
      obtain ⟨rfl, htracked, -⟩ := ih hpending
      subst ha
      exact ⟨hrequest, htracked.ask hexec hfeed, hrequest ▸ hholds⟩
    | answer f purpose line generation now replyClosed expired ha hpc hfield hmatches hpending hfeed =>
      obtain ⟨rfl, htracked, -⟩ := ih hpending
      refine ⟨hrequest, ?_, hrequest ▸ hholds⟩
      exact htracked.answer hexec ha hpc hfield hmatches hfeed

end Runs

/-- **What is known at dispatch.** When a call of `operate` is about to send its command, every field it has to
re-observe is vouched for exactly if no query for one of them was answered silently, with no new connection
noticed afterwards. -/
theorem vouched_iff (request : OperationRequest) (cycle : SyncCycleId) (feed : Feed) (acts : List CallAction)
    (call : Call) (hfeed : feed.Reached)
    (hexec : (operate request cycle feed).exec { request, cycle, feed } acts = some call)
    (hsend : ∃ command, call.pc = .send command) :
    (∀ f, Named request f → Vouched request cycle feed acts call.feed f) ↔
      ∀ f, Named request f → ¬ Unremedied request cycle feed acts f := by
  obtain ⟨command, hsend⟩ := hsend
  have hpending : call.pending = some [] := by
    unfold Call.pending
    rw [hsend]
    rfl
  obtain ⟨-, htracked, hholds⟩ := tracked_of_exec hfeed.valid hexec hpending
  refine forall_congr' fun f => imp_congr_right fun hnamed => ?_
  rw [vouched_iff_not_unseen htracked (hholds command hsend), htracked.answered f hnamed List.not_mem_nil]

/-! ### Two calls -/

/-- A session that has read a volume of -40 dB. -/
def quietFeed : Feed := ((Feed.new livingRoom).reduceLine 0 "MV40" true).1

theorem quietFeed_reached : quietFeed.Reached := (Feed.Reached.new livingRoom).reduceLine 0 "MV40" true

/-- A run up to the write: the target is asked for once and answered. -/
def answeredRun (reply : String) : List CallAction :=
  [.begin 20 false, .ask 0, .answer (.ok reply) 0 30 false false]

def answered (reply : String) : Option Call :=
  (operate raiseVolume 1 quietFeed).exec { request := raiseVolume, cycle := 1, feed := quietFeed }
    (answeredRun reply)

/-- The call whose query was answered by `MV40`. -/
def answeredCall : Call := (answered "MV40").get (by decide)

theorem vouched_iff_answeredCall :
    (∀ f, Named raiseVolume f → Vouched raiseVolume 1 quietFeed (answeredRun "MV40") answeredCall.feed f) ↔
      ∀ f, Named raiseVolume f → ¬ Unremedied raiseVolume 1 quietFeed (answeredRun "MV40") f :=
  vouched_iff raiseVolume 1 quietFeed (answeredRun "MV40") answeredCall quietFeed_reached
    (Option.some_get _).symm ⟨⟨"MV42", by decide, by decide⟩, by decide⟩

/-- The query for the volume is answered by `MV9999`, which is no volume. The cached -40 dB stays current, the
precondition holds in it, and the command is sent. -/
theorem not_vouched_malformedReply :
    ∃ request cycle feed acts call f, Feed.Reached feed ∧
      (operate request cycle feed).exec { request, cycle, feed } acts = some call ∧
        (∃ command, call.pc = .send command) ∧ Named request f ∧
          ¬ Vouched request cycle feed acts call.feed f := by
  obtain ⟨call, hexec, hsend, hgood, hcurrent⟩ : ∃ call, answered "MV9999" = some call ∧
      call.pc = .send ⟨"MV42", by decide, by decide⟩ ∧
      (call.feed.state.fieldAt .volume).lastGood =
        some ⟨livingRoom, 1, 1, 0, .receiverFrameInQueryWindow 1, .volume (.dbHalfSteps minus40)⟩ ∧
      (call.feed.state.fieldAt .volume).Current := by
    decide
  refine ⟨raiseVolume, 1, quietFeed, answeredRun "MV9999", call, .volume, quietFeed_reached, hexec,
    ⟨_, hsend⟩, .inl rfl, ?_⟩
  rintro (⟨o, ho, -, hlt, -⟩ | ⟨hnot, -⟩)
  · rw [hgood] at ho
    cases ho
    exact absurd hlt (by decide)
  · exact hnot hcurrent

end DenonAvr.Session
