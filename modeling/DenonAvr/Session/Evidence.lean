import DenonAvr.Session.StateRuns

/-!
# The evidence of a lost connection

A field shows live evidence when it is current, or unavailable by the receiver's own words. On a lost connection
nothing is live, and on a new one only what was heard there.

`staleIfObserved` leaves a field alone that has no last good value, and a volume can be unavailable without one. So the
evidence outlives its connection exactly there: `quiet_iff`.
-/

namespace DenonAvr.Domain

/-- What the receiver says now, be it that there is no value. -/
def FieldValidity.live : FieldValidity → Bool
  | .current _ | .unavailable _ => true
  | .unknown | .stale _ => false

end DenonAvr.Domain

namespace DenonAvr.Session

open Domain Protocol

namespace FeedOp

/-- The operation takes away the connection the state has. -/
def loses (op : FeedOp) (feed : Feed) : Bool :=
  match op with
  | .synchronizeGeneration generation => generation + 1 != feed.epoch && feed.state.epoch.isSome
  | .event (.disconnected generation _) => !decide (generation + 1 < feed.epoch)
  | .event .reconnected => true
  | _ => false

/-- The field whose frame the operation reduces, when the state takes it. -/
def heard (op : FeedOp) (feed : Feed) : Option CoreField :=
  match op with
  | .reduceLine line _ => if feed.state.epoch = some feed.epoch then (observationOf line).map CoreFrame.field else none
  | .event (.line line) => if feed.state.epoch = some feed.epoch then (observationOf line).map CoreFrame.field else none
  | _ => none

end FeedOp

/-- A volume shown as unavailable that was never observed. -/
def Blind (feed : Feed) : Prop := (feed.fresh .volume).1 = none ∧ ∃ raw, (feed.fresh .volume).2 = .unavailable raw

/-- A life, and the fields heard of since the epoch of the state was established. -/
structure Hearing where
  timed : Timed
  heard : List CoreField := []

namespace Hearing

def start (receiver : ReceiverId) : Hearing := { timed := Timed.start receiver }

def step (s : Hearing) (act : ℕ × FeedOp) : Hearing :=
  let timed := s.timed.step act
  { timed
    heard :=
      if timed.feed.state.epoch = s.timed.feed.state.epoch then (act.2.heard s.timed.feed).toList ++ s.heard else [] }

def run (s : Hearing) (acts : List (ℕ × FeedOp)) : Hearing := acts.foldl step s

theorem run_concat (s : Hearing) (acts : List (ℕ × FeedOp)) (act : ℕ × FeedOp) :
    s.run (acts ++ [act]) = (s.run acts).step act := by
  simp [run]

/-- No field is live but those heard of on the connection there is. -/
def Quiet (s : Hearing) : Prop :=
  ∀ f, s.timed.feed.state.epoch = none ∨ f ∉ s.heard → (s.timed.feed.fresh f).2.live = false

end Hearing

/-! ### One operation -/

section Apply
variable {feed : Feed} {f : CoreField} {op : FeedOp} {now : MonotonicMillis} {line : String} {inQuery : Bool}

/-- On the same connection, a field the operation does not hear of is left alone or becomes stale. -/
def Calm (op : FeedOp) (feed feed' : Feed) : Prop :=
  ∀ f, op.heard feed = some f ∨ feed'.fresh f = feed.fresh f ∨ ∃ reason, (feed'.fresh f).2 = .stale reason

/-- What one operation does to the connection and to the fields. -/
inductive FeedEffect (op : FeedOp) (feed feed' : Feed) : Prop
  /-- The connection is lost, and perhaps another established. -/
  | lost (hloses : op.loses feed = true) (hfresh : ∀ f, feed'.fresh f = Feed.lost (feed.fresh f))
      (hepoch : feed'.state.epoch = none ∨ feed'.state.epoch ≠ feed.state.epoch)
  /-- There was none, and one is established. -/
  | established (hloses : op.loses feed = false) (hnone : feed.state.epoch = none)
      (hfresh : ∀ f, feed'.fresh f = feed.fresh f)
  | kept (hloses : op.loses feed = false) (hepoch : feed'.state.epoch = feed.state.epoch) (hcalm : Calm op feed feed')

theorem epoch_of_heard (h : op.heard feed = some f) : feed.state.epoch = some feed.epoch := by
  cases op with
  | reduceLine line inQuery => exact (Option.ite_none_right_eq_some.mp h).1
  | event e =>
    cases e with
    | line text => exact (Option.ite_none_right_eq_some.mp h).1
    | _ => cases h
  | _ => cases h

theorem fresh_expire_stale (feed : Feed) (f : CoreField) (now : MonotonicMillis) :
    (feed.expire now).fresh f = feed.fresh f ∨ ∃ reason, ((feed.expire now).fresh f).2 = .stale reason := by
  unfold Feed.expire ReceiverState.expireFields
  split_ifs with hany
  · unfold Feed.fresh
    simp only [ReceiverState.fieldAt_bump]
    rw [ReceiverState.fieldAt_mapFields (ReceiverState.natural_expireIfDue now)]
    unfold FieldState.expireIfDue
    split_ifs
    · exact .inr ⟨.expired, rfl⟩
    · exact .inl rfl
  · exact .inl rfl

theorem expire_epoch : (feed.expire now).state.epoch = feed.state.epoch := by
  unfold Feed.expire ReceiverState.expireFields
  split_ifs <;> rfl

theorem fresh_markQueryFailed_stale (feed : Feed) (g f : CoreField) (message : String) :
    (feed.markQueryFailed g message).fresh f = feed.fresh f ∨
      ∃ reason, ((feed.markQueryFailed g message).fresh f).2 = .stale reason := by
  by_cases hf : f = g
  · subst hf
    rw [Feed.fresh_markQueryFailed_self]
    split_ifs
    · exact .inr ⟨.queryFailed, rfl⟩
    · exact .inl rfl
  · exact .inl (Feed.fresh_markQueryFailed message hf)

/-- A line is about one field at most, and about none that the state does not take. -/
theorem effect_reduceLine (hloses : op.loses feed = false)
    (hheard : op.heard feed =
      if feed.state.epoch = some feed.epoch then (observationOf line).map CoreFrame.field else none) :
    FeedEffect op feed (feed.reduceLine now line inQuery).1 := by
  refine .kept hloses Feed.reduceLine_epoch fun f => ?_
  by_cases hepoch : feed.state.epoch = some feed.epoch
  · rw [if_pos hepoch] at hheard
    cases hobs : observationOf line with
    | none => exact .inr (.inl (Feed.fresh_reduceLine_of_none hobs))
    | some frame =>
      by_cases hf : f = frame.field
      · left
        rw [hheard, hobs, hf]
        rfl
      · exact .inr (.inl (Feed.fresh_reduceLine_of_ne hobs hf))
  · exact .inr (.inl (Feed.fresh_reduceLine_of_rejected hepoch))

/-- What keeps the connection and changes no field. -/
theorem effect_kept {feed' : Feed} (hloses : op.loses feed = false) (hepoch : feed'.state.epoch = feed.state.epoch)
    (hfresh : ∀ f, feed'.fresh f = feed.fresh f) : FeedEffect op feed feed' :=
  .kept hloses hepoch fun f => .inr (.inl (hfresh f))

theorem effect_apply (hvalid : feed.Valid) (op : FeedOp) (now : MonotonicMillis) : FeedEffect op feed (op.apply feed now) := by
  cases op with
  | reduceLine line inQuery => exact effect_reduceLine rfl rfl
  | markConverging field cause cycle =>
    exact effect_kept rfl Feed.markConverging_epoch fun _ => Feed.fresh_markConverging
  | markSettled field cycle => exact effect_kept rfl Feed.markSettled_epoch fun _ => Feed.fresh_markSettled
  | markQueryFailed field message =>
    exact .kept rfl ReceiverState.mapField_epoch fun f => .inr (fresh_markQueryFailed_stale feed field f message)
  | expire => exact .kept rfl expire_epoch fun f => .inr (fresh_expire_stale feed f now)
  | synchronizeGeneration generation =>
    by_cases hsame : generation + 1 = feed.epoch
    · refine effect_kept (by simp [FeedOp.loses, hsame]) ?_ fun f => ?_
      · exact congrArg (·.state.epoch) (Feed.synchronizeGeneration_of_eq hsame)
      · exact congrArg (·.fresh f) (Feed.synchronizeGeneration_of_eq hsame)
    · obtain ⟨-, hstate, -, hfresh⟩ := Feed.synchronizeGeneration_of_ne feed hsame
      cases hepoch : feed.state.epoch with
      | none =>
        refine .established (by simp [FeedOp.loses, hepoch]) hepoch fun f => ?_
        rw [hepoch] at hfresh
        exact hfresh f
      | some e =>
        refine .lost (by simp [FeedOp.loses, hepoch, hsame]) (fun f => ?_) (.inr ?_)
        · rw [hepoch] at hfresh
          exact hfresh f
        · -- The state is bound to the feed's own epoch, which is another one.
          have hbound := hvalid.epoch e hepoch
          intro heq
          rw [FeedOp.apply, hstate, hepoch, Option.some.injEq] at heq
          exact hsame (heq.trans hbound)
  | event e =>
    cases e with
    | connected => exact effect_kept rfl rfl fun _ => rfl
    | line text => exact effect_reduceLine rfl rfl
    | disconnected generation message =>
      simp only [FeedOp.apply, Feed.applyEvent]
      split_ifs with hold
      · exact effect_kept (by simp [FeedOp.loses, hold]) rfl fun _ => rfl
      · exact .lost (by simp [FeedOp.loses, hold]) (fun _ => Feed.fresh_markDisconnected) (.inl rfl)
    | reconnected =>
      have hstate : (feed.state.markDisconnected.establishEpoch (feed.epoch + 1)).epoch = some (feed.epoch + 1) :=
        ReceiverState.establishEpoch_epoch_of_none _ (ReceiverState.markDisconnected_epoch _)
      refine .lost rfl (fun f => ?_) (.inr fun heq => ?_)
      · have hsame : ((FeedOp.event .reconnected).apply feed now).fresh f =
            ({ feed with state := feed.state.markDisconnected } : Feed).fresh f := by
          unfold Feed.fresh
          rw [show ((FeedOp.event .reconnected).apply feed now).state =
            feed.state.markDisconnected.establishEpoch (feed.epoch + 1) from rfl, ReceiverState.fieldAt_establishEpoch]
        exact hsame.trans Feed.fresh_markDisconnected
      · have hbound := hvalid.epoch _ (heq.symm.trans hstate)
        exact absurd hbound (Nat.succ_ne_self _)

/-- No field but the volume is ever shown as unavailable. -/
def OnlyVolume (feed : Feed) : Prop := ∀ f raw, (feed.fresh f).2 = .unavailable raw → f = .volume

theorem onlyVolume_reduceLine (h : OnlyVolume feed) : OnlyVolume (feed.reduceLine now line inQuery).1 := by
  intro f raw hraw
  cases hobs : observationOf line with
  | none =>
    rw [Feed.fresh_reduceLine_of_none hobs] at hraw
    exact h f raw hraw
  | some frame =>
    by_cases hf : f = frame.field
    · subst hf
      rw [Feed.fresh_reduceLine_of_some hobs] at hraw
      unfold ReceiverState.reduce at hraw
      split_ifs at hraw
      · unfold Feed.fresh at hraw
        simp only [ReceiverState.fieldAt_bump] at hraw
        rcases ReceiverState.fieldAt_applyFrame feed.state (feed.stamp now inQuery) (now + Feed.validity) frame with
          heq | ⟨raw', rfl, -⟩
        · rw [heq] at hraw
          cases hraw
        · rfl
      · exact h _ raw hraw
    · rw [Feed.fresh_reduceLine_of_ne hobs hf] at hraw
      exact h f raw hraw

theorem onlyVolume_of_effect {feed' : Feed} (h : OnlyVolume feed) (heffect : FeedEffect op feed feed')
    (hdeaf : op.heard feed = none) : OnlyVolume feed' := by
  intro f raw hraw
  cases heffect with
  | lost hloses hfresh hepoch =>
    rw [hfresh f] at hraw
    unfold Feed.lost at hraw
    split_ifs at hraw
    exact h f raw hraw
  | established hloses hnone hfresh =>
    rw [hfresh f] at hraw
    exact h f raw hraw
  | kept hloses hepoch hcalm =>
    rcases hcalm f with hheard | hsame | ⟨reason, hstale⟩
    · rw [hdeaf] at hheard
      cases hheard
    · rw [hsame] at hraw
      exact h f raw hraw
    · rw [hstale] at hraw
      cases hraw

theorem onlyVolume_apply (h : OnlyVolume feed) (hvalid : feed.Valid) (op : FeedOp) (now : MonotonicMillis) :
    OnlyVolume (op.apply feed now) := by
  cases op with
  | reduceLine line inQuery => exact onlyVolume_reduceLine h
  | event e =>
    cases e with
    | line text => exact onlyVolume_reduceLine h
    | _ => exact onlyVolume_of_effect h (effect_apply hvalid _ now) rfl
  | _ => exact onlyVolume_of_effect h (effect_apply hvalid _ now) rfl

end Apply

/-! ### A whole life -/

namespace Hearing

/-- Nothing is live but what was heard on the connection there is. -/
structure Silent (s : Hearing) : Prop where
  reached : s.timed.feed.Reached
  volume : OnlyVolume s.timed.feed
  quiet : s.Quiet

theorem start_silent (receiver : ReceiverId) : (start receiver).Silent := by
  refine ⟨.new receiver, fun f raw hraw => ?_, fun f _ => ?_⟩
  · cases f <;> cases hraw
  · cases f <;> rfl

/-- A live field that outlives its connection is a volume that was never observed. -/
theorem blind_of_live {feed : Feed} {f : CoreField} (hvalid : feed.Valid) (hvolume : OnlyVolume feed)
    (hlive : (Feed.lost (feed.fresh f)).2.live = true) : Blind feed := by
  unfold Feed.lost at hlive
  split_ifs at hlive with hobserved
  · cases hlive
  · have hnone : (feed.fresh f).1 = none := by simpa using hobserved
    cases hvalidity : (feed.fresh f).2 with
    | unknown => simp [hvalidity, FieldValidity.live] at hlive
    | stale reason => simp [hvalidity, FieldValidity.live] at hlive
    | current validUntil =>
      obtain ⟨o, ho, -⟩ := hvalid.current f ⟨validUntil, hvalidity⟩
      rw [hnone] at ho
      cases ho
    | unavailable raw =>
      obtain rfl := hvolume f raw hvalidity
      exact ⟨hnone, raw, hvalidity⟩

theorem heard_step {s : Hearing} {act : ℕ × FeedOp}
    (h : (s.step act).timed.feed.state.epoch = s.timed.feed.state.epoch) :
    (s.step act).heard = (act.2.heard s.timed.feed).toList ++ s.heard :=
  if_pos h

theorem heard_step_of_ne {s : Hearing} {act : ℕ × FeedOp}
    (h : (s.step act).timed.feed.state.epoch ≠ s.timed.feed.state.epoch) : (s.step act).heard = [] :=
  if_neg h

theorem Silent.step {s : Hearing} (h : s.Silent) (act : ℕ × FeedOp)
    (hloses : act.2.loses s.timed.feed = true → ¬ Blind s.timed.feed) : (s.step act).Silent := by
  have hvalid := h.reached.valid
  have heffect := effect_apply hvalid act.2 (s.timed.clock + act.1)
  refine ⟨reached_apply act.2 h.reached _, onlyVolume_apply h.volume hvalid act.2 _, fun f hf => ?_⟩
  show (((act.2.apply s.timed.feed (s.timed.clock + act.1)).fresh f).2).live = false
  cases heffect with
  | lost hlost hfresh hepoch =>
    rw [hfresh f]
    by_contra hlive
    exact hloses hlost (blind_of_live hvalid h.volume (by simpa using hlive))
  | established hkeeps hnone hfresh =>
    rw [hfresh f]
    exact h.quiet f (.inl hnone)
  | kept hkeeps hepoch hcalm =>
    rcases hcalm f with hheard | hsame | ⟨reason, hstale⟩
    · exfalso
      rcases hf with hnone | hf
      · have hbound := epoch_of_heard hheard
        rw [← hepoch] at hbound
        cases hnone.symm.trans hbound
      · apply hf
        rw [heard_step hepoch, hheard]
        exact List.mem_cons_self
    · rw [hsame]
      refine h.quiet f ?_
      rcases hf with hnone | hf
      · exact .inl (hepoch.symm.trans hnone)
      · right
        intro hin
        apply hf
        rw [heard_step hepoch]
        exact List.mem_append_right _ hin
    · rw [hstale]
      rfl

/-- A blind volume is live on behind the connection it was heard on. -/
theorem not_quiet_of_blind {s : Hearing} (h : s.timed.feed.Valid) (act : ℕ × FeedOp)
    (hloses : act.2.loses s.timed.feed = true) (hblind : Blind s.timed.feed) : ¬ (s.step act).Quiet := by
  intro hquiet
  obtain ⟨hnone, raw, hraw⟩ := hblind
  cases effect_apply h act.2 (s.timed.clock + act.1) with
  | lost _ hfresh hepoch =>
    have hvolume : ((s.step act).timed.feed.fresh .volume).2 = .unavailable raw := by
      refine (congrArg Prod.snd (hfresh .volume)).trans ?_
      simp [Feed.lost, hnone, hraw]
    have hdead := hquiet .volume (hepoch.imp_right fun hne => by rw [heard_step_of_ne hne]; exact List.not_mem_nil)
    rw [hvolume] at hdead
    cases hdead
  | established hkeeps _ _ => cases hkeeps.symm.trans hloses
  | kept hkeeps _ _ => cases hkeeps.symm.trans hloses

/-- Every connection that is lost is lost with no blind volume. -/
def Sighted (receiver : ReceiverId) (acts : List (ℕ × FeedOp)) : Prop :=
  ∀ before act after, acts = before ++ act :: after →
    act.2.loses ((start receiver).run before).timed.feed = true → ¬ Blind ((start receiver).run before).timed.feed

theorem Sighted.of_concat {receiver : ReceiverId} {acts : List (ℕ × FeedOp)} {act : ℕ × FeedOp}
    (h : Sighted receiver (acts ++ [act])) : Sighted receiver acts := by
  intro before act' after hacts
  exact h before act' (after ++ [act]) (by rw [hacts]; simp)

theorem silent_of_sighted {receiver : ReceiverId} {acts : List (ℕ × FeedOp)} (h : Sighted receiver acts) :
    ((start receiver).run acts).Silent := by
  induction acts using List.reverseRecOn with
  | nil => exact start_silent receiver
  | append_singleton acts act ih =>
    rw [run_concat]
    exact (ih h.of_concat).step act (h acts act [] rfl)

theorem run_reached (receiver : ReceiverId) (acts : List (ℕ × FeedOp)) :
    ((start receiver).run acts).timed.feed.Reached := by
  induction acts using List.reverseRecOn with
  | nil => exact .new receiver
  | append_singleton acts act ih =>
    rw [run_concat]
    exact reached_apply act.2 ih _

/-- **Live evidence of a lost connection**: in a life of any operations there is none, all the way, exactly when no
connection is lost while the volume is shown as unavailable without ever having been observed. -/
theorem quiet_iff (receiver : ReceiverId) (acts : List (ℕ × FeedOp)) :
    (∀ before, before <+: acts → ((start receiver).run before).Quiet) ↔ Sighted receiver acts := by
  constructor
  · intro hquiet before act after hacts hloses hblind
    refine not_quiet_of_blind (run_reached receiver before).valid act hloses hblind ?_
    rw [← run_concat]
    exact hquiet _ ⟨after, by rw [hacts]; simp⟩
  · rintro hsighted before ⟨after, rfl⟩
    refine (silent_of_sighted fun before' act after' hbefore => ?_).quiet
    exact hsighted before' act (after' ++ after) (by rw [hbefore]; simp)

/-- A receiver that reports no volume, and then closes the connection. -/
theorem not_quiet_unavailable :
    ¬ ((start livingRoom).run
      [(0, .reduceLine "MV---" true), (0, .event (.disconnected 0 "connection closed"))]).Quiet := by
  intro hquiet
  exact absurd (hquiet .volume (.inl (by decide))) (by decide)

end Hearing

end DenonAvr.Session
