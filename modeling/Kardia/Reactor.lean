import Kardia.MirrorRuns

namespace Kardia

open PeerState

structure ProposalMessage where
  proposal : Proposal
deriving DecidableEq, Repr

structure VoteMessage where
  vote : Vote
deriving DecidableEq, Repr

structure CommitStepMessage where
  height : BigInt
deriving DecidableEq, Repr

structure ProposalPOLMessage where
  height : BigInt
  proposalPOLRound : BigInt
  proposalPOL : Option BitArray
deriving DecidableEq, Repr

namespace PeerState

/-- The call `ps.mtx.Lock()`: `none` when the mutex is held, and no call of these handlers
releases it, so the caller blocks for good. -/
def lock (ps : PeerState) : Option PeerState :=
  if ps.mtx then none else some { ps with mtx := true }

def unlock (ps : PeerState) : PeerState := { ps with mtx := false }

/-- The pattern `ps.mtx.Lock(); defer ps.mtx.Unlock()` around `body`. -/
def withLock (body : PeerState → PeerState) (ps : PeerState) : Option PeerState :=
  ps.lock.map fun ps => (body ps).unlock

def call (op : MirrorOp) : PeerState → Option PeerState := withLock op.apply

theorem lock_of_held {ps : PeerState} (h : ps.mtx = true) : ps.lock = none := by
  simp [lock, h]

end PeerState

namespace MirrorOp

theorem apply_mtx (op : MirrorOp) (ps : PeerState) (b : Bool) :
    op.apply { ps with mtx := b } = { op.apply ps with mtx := b } := by
  cases op with
  | receiveNewRoundStep startTime msg =>
    simp only [apply, PeerState.applyNewRoundStep, PeerState.newRoundStep]
    split_ifs <;> rfl
  | setHasProposal p =>
    simp only [apply, PeerState.setHasProposal]
    split_ifs <;> rfl
  | setHasVote v =>
    simp only [apply, PeerState.setHasVote]
    split <;> rfl
  | applyHasVoteMessage m =>
    simp only [apply, PeerState.applyHasVoteMessage, PeerState.setHasVote]
    split_ifs
    · rfl
    · split <;> rfl
  | getRoundState => rfl

theorem mtx_apply (op : MirrorOp) (ps : PeerState) : (op.apply ps).mtx = ps.mtx := by
  cases op with
  | receiveNewRoundStep startTime msg =>
    simp only [apply, PeerState.applyNewRoundStep]
    split_ifs <;> simp
  | _ => simp [apply]

end MirrorOp

namespace PeerState

theorem call_of_free (op : MirrorOp) {ps : PeerState} (h : ps.mtx = false) :
    ps.call op = some (op.apply ps) := by
  have hm := (MirrorOp.mtx_apply op ps).trans h
  simp only [call, withLock, lock, h, Bool.false_eq_true, if_false, Option.map_some',
    unlock, MirrorOp.apply_mtx]
  rw [← hm]

theorem call_of_held (op : MirrorOp) {ps : PeerState} (h : ps.mtx = true) :
    ps.call op = none := by
  simp [call, withLock, lock_of_held h]

theorem call_run (ops : List MirrorOp) {ps : PeerState} (h : ps.mtx = false) :
    ops.foldlM (fun ps op => ps.call op) ps = some (ps.run ops) := by
  induction ops generalizing ps with
  | nil => rfl
  | cons op ops ih =>
    simp [call_of_free op h, ih ((MirrorOp.mtx_apply op ps).trans h)]

end PeerState

/-- An inbound message as it reaches its handler: decoded, or `none` when `Decode`
failed. -/
inductive Inbound where
  | newRoundStep (startTime : Int) (msg : Option NewRoundStepMessage)
  | proposal (msg : Option ProposalMessage)
  | vote (msg : Option VoteMessage)
  | hasVote (msg : Option HasVoteMessage)
  | commitStep (msg : Option CommitStepMessage)

namespace ConsensusReactor

/-- What every `Receive*` handler checks before it touches the mirror: the reactor is
running and the message decoded. `ps` is the peer's `PeerState` (when the downcast
fails no mirror is touched); the list is what the handler puts on `conS.peerMsgQueue`. -/
def receive {M : Type} (running : Bool) (msg : Option M)
    (handle : M → PeerState → Option (PeerState × List ProposalMessage)) (ps : PeerState) :
    Option (PeerState × List ProposalMessage) :=
  if !running then some (ps, [])
  else
    match msg with
    | none => some (ps, [])
    | some m => handle m ps

/-- From `ReceiveNewRoundStep`, lines 329-400; `startTime` is what line 366 computes. -/
def receiveNewRoundStep (running : Bool) (startTime : Int)
    (msg : Option NewRoundStepMessage) :
    PeerState → Option (PeerState × List ProposalMessage) :=
  receive running msg fun m ps => (ps.call (.receiveNewRoundStep startTime m)).map (·, [])

/-- From `ReceiveNewProposal`, lines 402-426. -/
def receiveNewProposal (running : Bool) (msg : Option ProposalMessage) :
    PeerState → Option (PeerState × List ProposalMessage) :=
  receive running msg fun m ps => (ps.call (.setHasProposal m.proposal)).map (·, [m])

/-- From `ReceiveNewVote`, lines 429-454: it returns between `Lock` and its `defer`. -/
def receiveNewVote (running : Bool) (msg : Option VoteMessage) :
    PeerState → Option (PeerState × List ProposalMessage) :=
  receive running msg fun _ ps => ps.lock.map (·, [])

/-- From `ReceiveHasVote`, lines 456-479. -/
def receiveHasVote (running : Bool) (msg : Option HasVoteMessage) :
    PeerState → Option (PeerState × List ProposalMessage) :=
  receive running msg fun m ps => (ps.call (.applyHasVoteMessage m)).map (·, [])

/-- From `ReceiveNewCommit`, lines 482-507: it returns between `Lock` and its `defer`. -/
def receiveNewCommit (running : Bool) (msg : Option CommitStepMessage) :
    PeerState → Option (PeerState × List ProposalMessage) :=
  receive running msg fun _ ps => ps.lock.map (·, [])

end ConsensusReactor

namespace Inbound

def handle (running : Bool) : Inbound → PeerState → Option (PeerState × List ProposalMessage)
  | newRoundStep startTime msg => ConsensusReactor.receiveNewRoundStep running startTime msg
  | proposal msg => ConsensusReactor.receiveNewProposal running msg
  | vote msg => ConsensusReactor.receiveNewVote running msg
  | hasVote msg => ConsensusReactor.receiveHasVote running msg
  | commitStep msg => ConsensusReactor.receiveNewCommit running msg

def Decoded : Inbound → Prop
  | newRoundStep _ msg => msg.isSome
  | proposal msg => msg.isSome
  | vote msg => msg.isSome
  | hasVote msg => msg.isSome
  | commitStep msg => msg.isSome

theorem handle_of_held (i : Inbound) (hi : i.Decoded) {ps : PeerState} (h : ps.mtx = true) :
    i.handle true ps = none := by
  cases i with
  | newRoundStep startTime msg | proposal msg | vote msg | hasVote msg | commitStep msg =>
    obtain ⟨m, rfl⟩ := Option.isSome_iff_exists.1 hi
    simp [handle, ConsensusReactor.receiveNewRoundStep, ConsensusReactor.receiveNewProposal,
      ConsensusReactor.receiveNewVote, ConsensusReactor.receiveHasVote,
      ConsensusReactor.receiveNewCommit, ConsensusReactor.receive,
      PeerState.call_of_held _ h, PeerState.lock_of_held h]

end Inbound

/-- The `cstypes.RoundState` as `gossipDataRoutine` reads it; `prevotesBitArray r` is
`Votes.Prevotes(r).BitArray()`. -/
structure RoundState where
  height : BigInt
  round : BigInt
  proposal : Option Proposal
  prevotesBitArray : Int → Option BitArray

inductive GossipAction where
  | stop
  | panic
  | sleep
  | sendProposal (msg : ProposalMessage) (pol : Option ProposalPOLMessage)
deriving DecidableEq, Repr

namespace ConsensusReactor

/-- One pass of `OUTER_LOOP` of `gossipDataRoutine`, lines 601-671, from the snapshots `rs`
of the local round state and `prs` of the mirror. A sent proposal is followed by
`SetHasProposal` and the optional POL message. -/
def gossipData (isAlive running : Bool) (rs : RoundState) (prs : PeerRoundState) :
    GossipAction :=
  if !isAlive || !running then .stop
  else if prs.height.isGreaterThanInt 0 && prs.height.isLessThan rs.height then .panic
  else if !rs.height.equals prs.height || !rs.round.equals prs.round then .sleep
  else
    match rs.proposal with
    | some p =>
      if !prs.proposal then
        .sendProposal ⟨p⟩
          (if p.polRound.isGreaterThanOrEqualThanInt 0 then
            some ⟨rs.height, p.polRound, rs.prevotesBitArray p.polRound.int32⟩
          else none)
      else .sleep
    | none => .sleep

theorem gossipData_eq_panic (isAlive running : Bool) (rs : RoundState) (prs : PeerRoundState) :
    gossipData isAlive running rs prs = .panic ↔
      isAlive = true ∧ running = true ∧ 0 < prs.height.val ∧ prs.height.val < rs.height.val := by
  unfold gossipData
  split
  case isTrue hstop =>
    simp only [Bool.or_eq_true, Bool.not_eq_true'] at hstop
    rcases hstop with h | h <;> simp [h]
  case isFalse hstop =>
    simp only [Bool.or_eq_true, Bool.not_eq_true', not_or, Bool.not_eq_false] at hstop
    simp only [hstop, true_and]
    split
    case isTrue hbehind => simpa [BigInt.isGreaterThanInt, BigInt.isLessThan] using hbehind
    case isFalse hbehind =>
      simp only [Bool.and_eq_true, BigInt.isGreaterThanInt, BigInt.isLessThan,
        decide_eq_true_eq] at hbehind
      simp only [hbehind, iff_false]
      split
      case isTrue => simp
      case isFalse =>
        split
        case h_1 => split <;> simp
        case h_2 => simp

theorem gossipData_panics_behind :
    gossipData true true ⟨⟨20, 2⟩, ⟨21, 0⟩, none, fun _ => none⟩
      (newPeerState.run [.receiveNewRoundStep 0 ⟨⟨5, 1⟩, ⟨6, 0⟩, 1, 0, ⟨7, -1⟩⟩]).prs = .panic :=
  (gossipData_eq_panic _ _ _ _).2 ⟨rfl, rfl, by decide, by decide⟩

end ConsensusReactor

theorem receiveNewVote_leaves_mtx_held (ps : PeerState) (h : ps.mtx = false) (m : VoteMessage) :
    ∃ ps', (Inbound.vote (some m)).handle true ps = some (ps', []) ∧ ps'.mtx = true ∧
      (∀ op, ps'.call op = none) ∧ ∀ i : Inbound, i.Decoded → i.handle true ps' = none := by
  refine ⟨{ ps with mtx := true }, ?_, rfl, fun op => PeerState.call_of_held op rfl,
    fun i hi => i.handle_of_held hi rfl⟩
  simp [Inbound.handle, ConsensusReactor.receiveNewVote, ConsensusReactor.receive,
    PeerState.lock, h]

theorem receiveNewVote_holds_fresh_mtx :
    newPeerState.mtx = false ∧
      ∃ ps', (Inbound.vote (some ⟨⟨⟨8, 1⟩, ⟨9, 0⟩, voteTypePrevote, ⟨10, 0⟩⟩⟩)).handle true
          newPeerState = some (ps', []) ∧ ps'.mtx = true ∧
        (∀ op, ps'.call op = none) ∧ ∀ i : Inbound, i.Decoded → i.handle true ps' = none :=
  ⟨rfl, receiveNewVote_leaves_mtx_held newPeerState rfl _⟩

end Kardia
