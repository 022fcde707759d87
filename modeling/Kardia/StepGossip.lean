import Kardia.Reactor

/-!
Round-step gossip from one consensus reactor to another. The sender's consensus state
moves forward and its reactor broadcasts every new step (`broadcastNewRoundStepMessages`)
and every vote (`broadcastHasVoteMessage`), after sending its current step to the peer it
adds (`sendNewRoundStepMessages`). The receiver hands each message, decoded, to its
handler on its mirror of the sender. The network delivers any message sent, any number of
times, in any order, or never.
-/

namespace Kardia

/-- The fields of `cstypes.RoundState` that `makeRoundStepMessages` reads: `lastCommitRound`
is `LastCommit.Round()`. -/
structure RoundStepState where
  height : BigInt
  round : BigInt
  step : RoundStepType
  lastCommitRound : BigInt
deriving DecidableEq, Repr

def RoundStepState.hrs (rs : RoundStepState) : HRS := Kardia.hrs rs.height rs.round rs.step

/-- Modelled from the spec: `cstypes.RoundStepCommit`, the last of the eight steps,
numbered from 1. -/
def roundStepCommit : RoundStepType := 8

inductive ReactorMessage where
  | newRoundStep (msg : NewRoundStepMessage)
  | commitStep (msg : CommitStepMessage)
  | hasVote (msg : HasVoteMessage)
deriving DecidableEq, Repr

namespace ConsensusReactor

/-- From `makeRoundStepMessages`, lines 577-593: `secs` is what line 582 computes with the
time package from the clock and `StartTime`. -/
def makeRoundStepMessages (secs : Nat) (rs : RoundStepState) :
    NewRoundStepMessage × Option CommitStepMessage :=
  (⟨rs.height, rs.round, rs.step, secs, rs.lastCommitRound⟩,
    if rs.step = roundStepCommit then some ⟨rs.height⟩ else none)

/-- From `broadcastNewRoundStepMessages`, lines 511-520: the messages it broadcasts. -/
def broadcastNewRoundStepMessages (secs : Nat) (rs : RoundStepState) : List ReactorMessage :=
  let (nrsMsg, csMsg) := makeRoundStepMessages secs rs
  .newRoundStep nrsMsg :: csMsg.toList.map .commitStep

/-- From `broadcastHasVoteMessage`, lines 523-548. -/
def broadcastHasVoteMessage (vote : Vote) : ReactorMessage :=
  .hasVote ⟨vote.height, vote.round, vote.type, vote.validatorIndex⟩

/-- From `sendNewRoundStepMessages`, lines 551-574: only the `NewRoundStepMessage` goes
out; a send error is logged and dropped. -/
def sendNewRoundStepMessages (secs : Nat) (rs : RoundStepState) : ReactorMessage :=
  .newRoundStep (makeRoundStepMessages secs rs).1

end ConsensusReactor

namespace ReactorMessage

def inbound (startTime : Int) : ReactorMessage → Inbound
  | newRoundStep msg => .newRoundStep startTime (some msg)
  | commitStep msg => .commitStep (some msg)
  | hasVote msg => .hasVote (some msg)

/-- `m` is `m₀` after decoding: the same values in `*cmn.BigInt`s of the receiver's own. -/
def Copies : ReactorMessage → ReactorMessage → Prop
  | newRoundStep m, newRoundStep m₀ =>
    m.hrs = m₀.hrs ∧ m.secondsSinceStartTime = m₀.secondsSinceStartTime ∧
      m.lastCommitRound.val = m₀.lastCommitRound.val
  | commitStep m, commitStep m₀ => m.height.val = m₀.height.val
  | hasVote m, hasVote m₀ =>
    m.height.val = m₀.height.val ∧ m.round.val = m₀.round.val ∧ m.type = m₀.type ∧
      m.index.val = m₀.index.val
  | _, _ => False

end ReactorMessage

/-- The sender's round state, the messages it has sent to the receiver, and the receiver:
whether its reactor runs, its mirror of the sender, and whether its receive loop for the
sender is blocked in `ps.mtx.Lock()`. -/
structure StepGossip where
  rs : RoundStepState
  sent : List ReactorMessage
  running : Bool
  mirror : PeerState
  blocked : Bool

namespace StepGossip

/-- The receiver hands `i` to its handler: a handler that blocks blocks the loop for good. -/
def receive (s : StepGossip) (i : Inbound) : StepGossip :=
  match i.handle s.running s.mirror with
  | some (ps, _) => { s with mirror := ps }
  | none => { s with blocked := true }

end StepGossip

open ConsensusReactor

/-- The sender added the receiver (`AddPeer`, lines 271-294) and sent it its step; the
receiver, running, made its `NewPeerState` for the sender. -/
def StepGossip.init (secs : Nat) (rs : RoundStepState) : StepGossip :=
  ⟨rs, [sendNewRoundStepMessages secs rs], true, PeerState.newPeerState, false⟩

inductive StepGossipStep : StepGossip → StepGossip → Prop where
  /-- The sender's consensus state moves forward and the `EventNewRoundStep` listener
  broadcasts the new step. -/
  | advance (s : StepGossip) (secs : Nat) (rs : RoundStepState) (h : s.rs.hrs ≤ rs.hrs) :
      StepGossipStep s { s with rs := rs, sent := s.sent ++ broadcastNewRoundStepMessages secs rs }
  /-- The `EventVote` listener broadcasts a vote. -/
  | vote (s : StepGossip) (v : Vote) :
      StepGossipStep s { s with sent := s.sent ++ [broadcastHasVoteMessage v] }
  /-- The receiver's loop takes a message sent to it, decoded. -/
  | deliver (s : StepGossip) (m₀ m : ReactorMessage) (startTime : Int) (h₀ : m₀ ∈ s.sent)
      (hm : m.Copies m₀) (hb : s.blocked = false) :
      StepGossipStep s (s.receive (m.inbound startTime))
  /-- The receiver's reactor is started or stopped. -/
  | setRunning (s : StepGossip) (b : Bool) : StepGossipStep s { s with running := b }

inductive StepGossipReachable : StepGossip → Prop where
  | init (secs : Nat) (rs : RoundStepState) (h : PeerState.newPeerState.prs.hrs ≤ rs.hrs) :
      StepGossipReachable (.init secs rs)
  | step {s s' : StepGossip} : StepGossipReachable s → StepGossipStep s s' →
      StepGossipReachable s'

namespace ReactorMessage

def op (startTime : Int) : ReactorMessage → Option MirrorOp
  | newRoundStep msg => some (.receiveNewRoundStep startTime msg)
  | commitStep _ => none
  | hasVote msg => some (.applyHasVoteMessage msg)

def newRoundStep? : ReactorMessage → Option NewRoundStepMessage
  | newRoundStep msg => some msg
  | _ => none

end ReactorMessage

namespace StepGossip

theorem receive_inbound (s : StepGossip) (startTime : Int) (m : ReactorMessage) :
    s.receive (m.inbound startTime) =
      if s.running = false then s
      else if s.mirror.mtx = true then { s with blocked := true }
      else
        match m.op startTime with
        | some op => { s with mirror := op.apply s.mirror }
        | none => { s with mirror := { s.mirror with mtx := true } } := by
  obtain ⟨rs, sent, running, mirror, blocked⟩ := s
  cases running
  · cases m <;> rfl
  · cases hm : mirror.mtx <;> cases m <;>
      simp [receive, ReactorMessage.inbound, ReactorMessage.op, Inbound.handle,
        ConsensusReactor.receiveNewRoundStep, ConsensusReactor.receiveHasVote,
        ConsensusReactor.receiveNewCommit, ConsensusReactor.receive, hm, PeerState.call_of_free,
        PeerState.call_of_held, PeerState.lock]

@[simp] theorem receive_rs (s : StepGossip) (i : Inbound) : (s.receive i).rs = s.rs := by
  unfold receive; split <;> rfl

@[simp] theorem receive_sent (s : StepGossip) (i : Inbound) : (s.receive i).sent = s.sent := by
  unfold receive; split <;> rfl

theorem hrs_receive (s : StepGossip) (startTime : Int) (m : ReactorMessage) :
    (s.receive (m.inbound startTime)).mirror.prs.hrs =
      if s.running = true ∧ s.mirror.mtx = false then
        maxHRS s.mirror.prs.hrs m.newRoundStep?.toList
      else s.mirror.prs.hrs := by
  rw [receive_inbound]
  cases hr : s.running <;> cases hm : s.mirror.mtx <;> simp only [hr, hm] <;> try rfl
  cases m
  · exact hrs_apply (.receiveNewRoundStep startTime _) _
  · rfl
  · exact hrs_apply (.applyHasVoteMessage _) _

theorem receive_of_held (s : StepGossip) (startTime : Int) (m : ReactorMessage)
    (h : s.mirror.mtx = true) : (s.receive (m.inbound startTime)).mirror = s.mirror := by
  rw [receive_inbound]
  cases s.running <;> simp [h]

end StepGossip

open StepGossip

theorem maxHRS_le {a b : HRS} {l : List NewRoundStepMessage} (ha : a ≤ b)
    (hl : ∀ m ∈ l, m.hrs ≤ b) : maxHRS a l ≤ b := by
  rcases maxHRS_mem a l with h | ⟨m, hm, h⟩
  · rw [h]; exact ha
  · rw [h]; exact hl m hm

theorem ReactorMessage.Copies.newRoundStep? {m m₀ : ReactorMessage} (h : m.Copies m₀)
    {msg : NewRoundStepMessage} (hm : m.newRoundStep? = some msg) :
    ∃ msg₀, m₀ = .newRoundStep msg₀ ∧ msg.hrs = msg₀.hrs := by
  cases m <;> cases m₀ <;> simp_all [ReactorMessage.newRoundStep?, ReactorMessage.Copies]

structure StepGossipInv (s : StepGossip) : Prop where
  sent : ∀ msg, ReactorMessage.newRoundStep msg ∈ s.sent → msg.hrs ≤ s.rs.hrs
  mirror : s.mirror.prs.hrs ≤ s.rs.hrs
  current : ∃ msg, ReactorMessage.newRoundStep msg ∈ s.sent ∧ msg.hrs = s.rs.hrs

theorem stepGossipInv_init (secs : Nat) (rs : RoundStepState)
    (h : PeerState.newPeerState.prs.hrs ≤ rs.hrs) : StepGossipInv (.init secs rs) := by
  refine ⟨fun msg hm => ?_, h, ⟨_, List.mem_singleton_self _, rfl⟩⟩
  simp only [StepGossip.init, sendNewRoundStepMessages, List.mem_singleton,
    ReactorMessage.newRoundStep.injEq] at hm
  subst hm
  rfl

theorem stepGossipInv_step {s s' : StepGossip} (h : StepGossipInv s) (hs : StepGossipStep s s') :
    StepGossipInv s' := by
  cases hs with
  | advance secs rs hle =>
    refine ⟨fun msg hm => ?_, h.mirror.trans hle,
      ⟨_, List.mem_append_right _ (List.mem_cons_self _ _), rfl⟩⟩
    rcases List.mem_append.1 hm with hm | hm
    · exact (h.sent msg hm).trans hle
    · simp only [broadcastNewRoundStepMessages, List.mem_cons, ReactorMessage.newRoundStep.injEq,
        List.mem_map, Option.mem_toList, reduceCtorEq, and_false, exists_false, or_false] at hm
      subst hm
      rfl
  | vote v =>
    obtain ⟨msg₀, hmem, hcur⟩ := h.current
    refine ⟨fun msg hm => ?_, h.mirror, ⟨msg₀, List.mem_append_left _ hmem, hcur⟩⟩
    rcases List.mem_append.1 hm with hm | hm
    · exact h.sent msg hm
    · simp [broadcastHasVoteMessage] at hm
  | deliver m₀ m startTime h₀ hm hb =>
    refine ⟨by simpa using h.sent, ?_, by simpa using h.current⟩
    rw [hrs_receive, receive_rs]
    split_ifs
    · refine maxHRS_le h.mirror fun msg hmsg => ?_
      obtain ⟨msg₀, rfl, he⟩ := hm.newRoundStep? (Option.mem_toList.1 hmsg)
      exact he ▸ h.sent msg₀ h₀
    · exact h.mirror
  | setRunning b => exact ⟨h.sent, h.mirror, h.current⟩

theorem stepGossipInv_reachable {s : StepGossip} (h : StepGossipReachable s) :
    StepGossipInv s := by
  induction h with
  | init secs rs h => exact stepGossipInv_init secs rs h
  | step _ hs ih => exact stepGossipInv_step ih hs

theorem mirror_never_ahead {s : StepGossip} (h : StepGossipReachable s) :
    s.mirror.prs.hrs ≤ s.rs.hrs :=
  (stepGossipInv_reachable h).mirror

def proposeStep : RoundStepState := ⟨⟨0, 1⟩, ⟨1, 0⟩, 3, ⟨2, -1⟩⟩

def prevoteStep : RoundStepState := ⟨⟨0, 1⟩, ⟨1, 0⟩, 4, ⟨2, -1⟩⟩

theorem mirror_not_ahead_after_delivery :
    ∃ s, StepGossipReachable s ∧ s.rs = prevoteStep ∧ s.mirror.prs.hrs = prevoteStep.hrs ∧
      s.mirror.prs.hrs ≤ s.rs.hrs :=
  let s₀ := StepGossip.init 0 proposeStep
  let s₁ : StepGossip :=
    { s₀ with rs := prevoteStep, sent := s₀.sent ++ broadcastNewRoundStepMessages 1 prevoteStep }
  have h₁ : StepGossipReachable s₁ :=
    .step (.init 0 proposeStep (by decide)) (.advance s₀ 1 prevoteStep (by decide))
  have h₂ : StepGossipReachable
      (s₁.receive ((ReactorMessage.newRoundStep ⟨⟨10, 1⟩, ⟨11, 0⟩, 4, 1, ⟨12, -1⟩⟩).inbound 0)) :=
    .step h₁ (.deliver s₁ (.newRoundStep (makeRoundStepMessages 1 prevoteStep).1) _ 0 (by decide)
      ⟨rfl, rfl, rfl⟩ rfl)
  ⟨_, h₂, rfl, by decide, mirror_never_ahead h₂⟩

theorem hrs_receive_copy {s : StepGossip} (hr : s.running = true) (hf : s.mirror.mtx = false)
    {msg₀ : NewRoundStepMessage} {m : ReactorMessage} (hm : m.Copies (.newRoundStep msg₀))
    (startTime : Int) : (s.receive (m.inbound startTime)).mirror.prs.hrs = max s.mirror.prs.hrs msg₀.hrs := by
  cases m with
  | newRoundStep msg =>
    rw [hrs_receive, if_pos ⟨hr, hf⟩]
    simp only [ReactorMessage.newRoundStep?, Option.toList_some, maxHRS, List.foldl_cons,
      List.foldl_nil, hm.1]
  | _ => cases hm

theorem mirror_catches_up {s : StepGossip} (h : StepGossipReachable s) (hr : s.running = true)
    (hf : s.mirror.mtx = false) {msg₀ : NewRoundStepMessage} (hcur : msg₀.hrs = s.rs.hrs)
    {m : ReactorMessage} (hm : m.Copies (.newRoundStep msg₀)) (startTime : Int) :
    (s.receive (m.inbound startTime)).mirror.prs.hrs = s.rs.hrs := by
  rw [hrs_receive_copy hr hf hm, hcur]
  exact max_eq_right (stepGossipInv_reachable h).mirror

theorem fresh_mirror_catches_up :
    StepGossipReachable (.init 0 proposeStep) ∧ (StepGossip.init 0 proposeStep).running = true ∧
      (StepGossip.init 0 proposeStep).mirror.mtx = false ∧
      (makeRoundStepMessages 0 proposeStep).1.hrs = (StepGossip.init 0 proposeStep).rs.hrs ∧
      (ReactorMessage.newRoundStep ⟨⟨10, 1⟩, ⟨11, 0⟩, 3, 0, ⟨12, -1⟩⟩).Copies
        (.newRoundStep (makeRoundStepMessages 0 proposeStep).1) ∧
      ((StepGossip.init 0 proposeStep).receive
        ((ReactorMessage.newRoundStep ⟨⟨10, 1⟩, ⟨11, 0⟩, 3, 0, ⟨12, -1⟩⟩).inbound 5)).mirror.prs.hrs =
        proposeStep.hrs :=
  have h : StepGossipReachable (.init 0 proposeStep) := .init 0 proposeStep (by decide)
  have hm : (ReactorMessage.newRoundStep ⟨⟨10, 1⟩, ⟨11, 0⟩, 3, 0, ⟨12, -1⟩⟩).Copies
      (.newRoundStep (makeRoundStepMessages 0 proposeStep).1) := ⟨rfl, rfl, rfl⟩
  ⟨h, rfl, rfl, rfl, hm, @mirror_catches_up _ h rfl rfl (makeRoundStepMessages 0 proposeStep).1 rfl _ hm 5⟩

theorem mirror_can_catch_up {s : StepGossip} (h : StepGossipReachable s) (hr : s.running = true)
    (hf : s.mirror.mtx = false) (hb : s.blocked = false) (startTime : Int) :
    ∃ s', StepGossipStep s s' ∧ s'.mirror.prs.hrs = s.rs.hrs := by
  have hi := stepGossipInv_reachable h
  obtain ⟨msg, hmem, hcur⟩ := hi.current
  have hc : (ReactorMessage.newRoundStep msg).Copies (.newRoundStep msg) := ⟨rfl, rfl, rfl⟩
  refine ⟨_, .deliver s _ _ startTime hmem hc hb, ?_⟩
  rw [hrs_receive_copy hr hf hc, hcur]
  exact max_eq_right hi.mirror

theorem fresh_mirror_can_catch_up :
    StepGossipReachable (.init 0 proposeStep) ∧ (StepGossip.init 0 proposeStep).running = true ∧
      (StepGossip.init 0 proposeStep).mirror.mtx = false ∧
      (StepGossip.init 0 proposeStep).blocked = false ∧
      ∃ s', StepGossipStep (.init 0 proposeStep) s' ∧ s'.mirror.prs.hrs = proposeStep.hrs :=
  have h : StepGossipReachable (.init 0 proposeStep) := .init 0 proposeStep (by decide)
  ⟨h, rfl, rfl, rfl, mirror_can_catch_up h rfl rfl rfl 0⟩

theorem mirror_frozen_of_held {s s' : StepGossip} (h : Relation.ReflTransGen StepGossipStep s s')
    (hm : s.mirror.mtx = true) : s'.mirror = s.mirror := by
  induction h with
  | refl => rfl
  | tail _ hs ih =>
    cases hs with
    | deliver m₀ m startTime h₀ hc hb => rw [receive_of_held _ _ _ (by rw [ih]; exact hm), ih]
    | _ => exact ih

theorem commitStep_freezes_mirror {s s' : StepGossip} (hr : s.running = true)
    (hf : s.mirror.mtx = false) (c : CommitStepMessage) (startTime : Int)
    (h : Relation.ReflTransGen StepGossipStep (s.receive ((ReactorMessage.commitStep c).inbound startTime)) s') :
    s'.mirror = { s.mirror with mtx := true } := by
  have h₁ : (s.receive ((ReactorMessage.commitStep c).inbound startTime)).mirror =
      { s.mirror with mtx := true } := by
    rw [receive_inbound]; simp [hr, hf, ReactorMessage.op]
  rw [mirror_frozen_of_held h (by rw [h₁])]
  exact h₁

theorem commitStep_freezes_fresh_mirror :
    (StepGossip.init 0 proposeStep).running = true ∧
      (StepGossip.init 0 proposeStep).mirror.mtx = false ∧
      ∃ s', Relation.ReflTransGen StepGossipStep
          ((StepGossip.init 0 proposeStep).receive
            ((ReactorMessage.commitStep ⟨⟨20, 1⟩⟩).inbound 0)) s' ∧
        s'.rs = prevoteStep ∧ s'.blocked = true ∧
        s'.mirror = { (StepGossip.init 0 proposeStep).mirror with mtx := true } :=
  let s₁ := (StepGossip.init 0 proposeStep).receive
    ((ReactorMessage.commitStep ⟨⟨20, 1⟩⟩).inbound 0)
  let s₂ : StepGossip :=
    { s₁ with rs := prevoteStep, sent := s₁.sent ++ broadcastNewRoundStepMessages 1 prevoteStep }
  have ha : StepGossipStep s₁ s₂ := .advance s₁ 1 prevoteStep (by decide)
  have hd : StepGossipStep s₂
      (s₂.receive ((ReactorMessage.newRoundStep ⟨⟨10, 1⟩, ⟨11, 0⟩, 4, 1, ⟨12, -1⟩⟩).inbound 0)) :=
    .deliver s₂ (.newRoundStep (makeRoundStepMessages 1 prevoteStep).1) _ 0 (by decide)
      ⟨rfl, rfl, rfl⟩ rfl
  have h := Relation.ReflTransGen.tail (.tail .refl ha) hd
  ⟨rfl, rfl, _, h, rfl, rfl, commitStep_freezes_mirror rfl rfl ⟨⟨20, 1⟩⟩ 0 h⟩

end Kardia
