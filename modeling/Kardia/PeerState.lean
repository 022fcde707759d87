import Kardia.Values

/-!
The per-peer round-state mirror of the consensus reactor (`consensus/reactor.go`):
`PeerRoundState`, `NewPeerState`, and the updates `ReceiveNewRoundStep`,
`SetHasProposal`, `setHasVote` and `ApplyHasVoteMessage` make under `ps.mtx`.
-/

namespace Kardia

/-- The `types.Proposal` of the types package the reactor is built against: `*cmn.BigInt`
height, round and POL round, and a block whose `Block.Header().Hash()` is `blockHeaderHash`. -/
structure Proposal where
  height : BigInt
  round : BigInt
  polRound : BigInt
  blockHeaderHash : Hash
deriving DecidableEq, Repr

structure Vote where
  height : BigInt
  round : BigInt
  type : UInt8
  validatorIndex : BigInt
deriving DecidableEq, Repr

structure NewRoundStepMessage where
  height : BigInt
  round : BigInt
  step : RoundStepType
  secondsSinceStartTime : Nat
  lastCommitRound : BigInt
deriving DecidableEq, Repr

structure HasVoteMessage where
  height : BigInt
  round : BigInt
  type : UInt8
  index : BigInt
deriving DecidableEq, Repr

/-- The `cstypes.PeerRoundState`. A `*cmn.BitArray` field holds the address of its array
in `PeerState.bitArrays`, `none` for nil; `startTime` is the `time.Time` that
`ReceiveNewRoundStep` computes, which no handler reads back. -/
structure PeerRoundState where
  height : BigInt
  round : BigInt
  step : RoundStepType
  startTime : Int
  proposal : Bool
  proposalBlockHeader : Hash
  proposalPOLRound : BigInt
  proposalPOL : Option Nat
  prevotes : Option Nat
  precommits : Option Nat
  lastCommitRound : BigInt
  lastCommit : Option Nat
  catchupCommitRound : BigInt
  catchupCommit : Option Nat
deriving DecidableEq, Repr

/-- The `PeerState`: the mutex (`true` while held), the mirror, the bit arrays its
pointers refer to, and the next address `cmn.NewBigInt` hands out. -/
structure PeerState where
  mtx : Bool
  prs : PeerRoundState
  bitArrays : List BitArray
  alloc : Nat
deriving DecidableEq, Repr

def Proposal.isFor (p : Proposal) (prs : PeerRoundState) : Bool :=
  prs.height.equals p.height && prs.round.equals p.round

@[simp] theorem Proposal.isFor_iff (p : Proposal) (prs : PeerRoundState) :
    p.isFor prs = true ↔ prs.height.val = p.height.val ∧ prs.round.val = p.round.val := by
  simp [Proposal.isFor]

def NewRoundStepMessage.hrs (msg : NewRoundStepMessage) : HRS :=
  Kardia.hrs msg.height msg.round msg.step

namespace PeerRoundState

def hrs (prs : PeerRoundState) : HRS := Kardia.hrs prs.height prs.round prs.step

/-- Lines 371-379: a peer in a new (height, round) has no proposal and no votes. -/
def resetRound (prs : PeerRoundState) (polRound : BigInt) : PeerRoundState :=
  { prs with
    proposal := false, proposalBlockHeader := 0, proposalPOLRound := polRound
    proposalPOL := none, prevotes := none, precommits := none }

/-- Lines 387-399: a peer at a new height; its precommits become the last commit when
it advanced by one height from the round that committed. -/
def shiftLastCommit (prs : PeerRoundState) (psHeight psRound : BigInt)
    (msg : NewRoundStepMessage) (catchupCommitRound : BigInt) : PeerRoundState :=
  { prs with
    lastCommitRound := msg.lastCommitRound
    lastCommit :=
      if psHeight.val + 1 = msg.height.val ∧ psRound.equals msg.lastCommitRound then
        prs.precommits
      else none
    catchupCommitRound := catchupCommitRound
    catchupCommit := none }

/-- From `getVoteBitArray`, lines 793-838. -/
def getVoteBitArray (prs : PeerRoundState) (height round : BigInt) (type : UInt8) :
    Option Nat :=
  if !isVoteTypeValid type then none
  else if prs.height.equals height then
    if prs.round.equals round ∧ type = voteTypePrevote then prs.prevotes
    else if prs.round.equals round ∧ type = voteTypePrecommit then prs.precommits
    else if prs.proposalPOLRound.equals round ∧ type = voteTypePrevote then prs.proposalPOL
    else none
  else if prs.height.val = height.val + 1 then
    if prs.lastCommitRound.equals round ∧ type = voteTypePrecommit then prs.lastCommit
    else none
  else none

def NoBitArrays (prs : PeerRoundState) : Prop :=
  prs.proposalPOL = none ∧ prs.prevotes = none ∧ prs.precommits = none ∧
    prs.lastCommit = none ∧ prs.catchupCommit = none

theorem getVoteBitArray_of_noBitArrays {prs : PeerRoundState} (h : prs.NoBitArrays)
    (height round : BigInt) (type : UInt8) : prs.getVoteBitArray height round type = none := by
  obtain ⟨h1, h2, h3, h4, -⟩ := h
  unfold getVoteBitArray
  split_ifs <;> simp [*]

end PeerRoundState

namespace PeerState

/-- From `NewPeerState`, lines 745-756: five fresh `*cmn.BigInt`, every other field zero. -/
def newPeerState : PeerState where
  mtx := false
  prs :=
    { height := ⟨0, 0⟩, round := ⟨1, -1⟩, step := 0, startTime := 0, proposal := false
      proposalBlockHeader := 0, proposalPOLRound := ⟨2, -1⟩, proposalPOL := none
      prevotes := none, precommits := none, lastCommitRound := ⟨3, -1⟩
      lastCommit := none, catchupCommitRound := ⟨4, -1⟩, catchupCommit := none }
  bitArrays := []
  alloc := 5

/-- Lines 359-399 of `ReceiveNewRoundStep`: the update once the step is new. `startTime` is
what line 366 computes with the time package from the clock and `SecondsSinceStartTime`.
The two `cmn.NewBigInt(-1)` take the addresses `alloc` and `alloc + 1`. -/
def newRoundStep (startTime : Int) (msg : NewRoundStepMessage) (ps : PeerState) :
    PeerState :=
  let psHeight := ps.prs.height
  let psRound := ps.prs.round
  let psCatchupCommitRound := ps.prs.catchupCommitRound
  let psCatchupCommit := ps.prs.catchupCommit
  let prs₁ := { ps.prs with
    height := msg.height, round := msg.round, step := msg.step
    startTime := startTime }
  let prs₂ :=
    if !psHeight.equals msg.height || !psRound.equals msg.round then
      prs₁.resetRound ⟨ps.alloc, -1⟩
    else prs₁
  let prs₃ :=
    if psHeight.ptrEq msg.height && !psRound.ptrEq msg.round &&
        msg.round.ptrEq psCatchupCommitRound then
      { prs₂ with precommits := psCatchupCommit }
    else prs₂
  let prs₄ :=
    if !psHeight.ptrEq msg.height then
      prs₃.shiftLastCommit psHeight psRound msg ⟨ps.alloc + 1, -1⟩
    else prs₃
  { ps with prs := prs₄, alloc := ps.alloc + 2 }

/-- Lines 354-399 of `ReceiveNewRoundStep`, run under `ps.mtx`. -/
def applyNewRoundStep (startTime : Int) (msg : NewRoundStepMessage) (ps : PeerState) :
    PeerState :=
  if compareHRS msg.height msg.round msg.step ps.prs.height ps.prs.round ps.prs.step ≤ 0 then ps
  else newRoundStep startTime msg ps

/-- From `SetHasProposal`, lines 780-790. -/
def setHasProposal (proposal : Proposal) (ps : PeerState) : PeerState :=
  if !ps.prs.height.equals proposal.height || !ps.prs.round.equals proposal.round then ps
  else if ps.prs.proposal then ps
  else
    { ps with
      prs := { ps.prs with
        proposal := true, proposalBlockHeader := proposal.blockHeaderHash
        proposalPOLRound := proposal.polRound, proposalPOL := none } }

/-- From `setHasVote`, lines 848-857: a nil bit array is left alone. -/
def setHasVote (height round : BigInt) (type : UInt8) (index : BigInt) (ps : PeerState) :
    PeerState :=
  match ps.prs.getVoteBitArray height round type with
  | none => ps
  | some r => { ps with bitArrays := ps.bitArrays.modify (·.setIndex index.int32 true) r }

/-- From `ApplyHasVoteMessage`, lines 865-869. -/
def applyHasVoteMessage (msg : HasVoteMessage) (ps : PeerState) : PeerState :=
  if !ps.prs.height.equals msg.height then ps
  else ps.setHasVote msg.height msg.round msg.type msg.index

/-- From `GetRoundState`, lines 771-772: a shallow copy of the mirror. -/
def getRoundState (ps : PeerState) : PeerRoundState := ps.prs

section Lemmas

variable (startTime : Int) (msg : NewRoundStepMessage) (ps : PeerState)

@[simp] theorem newRoundStep_mtx : (ps.newRoundStep startTime msg).mtx = ps.mtx := rfl

@[simp] theorem newRoundStep_bitArrays :
    (ps.newRoundStep startTime msg).bitArrays = ps.bitArrays :=
  rfl

@[simp] theorem newRoundStep_height : (ps.newRoundStep startTime msg).prs.height = msg.height := by
  simp only [newRoundStep]; split_ifs <;> rfl

@[simp] theorem newRoundStep_round : (ps.newRoundStep startTime msg).prs.round = msg.round := by
  simp only [newRoundStep]; split_ifs <;> rfl

@[simp] theorem newRoundStep_step : (ps.newRoundStep startTime msg).prs.step = msg.step := by
  simp only [newRoundStep]; split_ifs <;> rfl

theorem applyNewRoundStep_of_le (h : msg.hrs ≤ ps.prs.hrs) :
    ps.applyNewRoundStep startTime msg = ps := by
  rw [applyNewRoundStep, if_pos ((compareHRS_nonpos_iff ..).2 h)]

theorem applyNewRoundStep_of_lt (h : ps.prs.hrs < msg.hrs) :
    ps.applyNewRoundStep startTime msg = ps.newRoundStep startTime msg := by
  rw [applyNewRoundStep, if_neg (by rw [compareHRS_nonpos_iff]; exact not_le.2 h)]

theorem hrs_applyNewRoundStep :
    (ps.applyNewRoundStep startTime msg).prs.hrs = max ps.prs.hrs msg.hrs := by
  rcases le_or_lt msg.hrs ps.prs.hrs with h | h
  · rw [applyNewRoundStep_of_le _ _ _ h, max_eq_left h]
  · rw [applyNewRoundStep_of_lt _ _ _ h, max_eq_right h.le]
    simp [PeerRoundState.hrs, NewRoundStepMessage.hrs]

theorem newRoundStep_proposal_of_same (hh : ps.prs.height.val = msg.height.val)
    (hr : ps.prs.round.val = msg.round.val) :
    (ps.newRoundStep startTime msg).prs.proposal = ps.prs.proposal ∧
      (ps.newRoundStep startTime msg).prs.proposalBlockHeader = ps.prs.proposalBlockHeader ∧
      (ps.newRoundStep startTime msg).prs.proposalPOLRound = ps.prs.proposalPOLRound ∧
      (ps.newRoundStep startTime msg).prs.proposalPOL = ps.prs.proposalPOL := by
  simp only [newRoundStep, BigInt.equals, hh, hr, beq_self_eq_true, Bool.not_true,
    Bool.or_self, Bool.false_eq_true, if_false]
  split_ifs <;> simp [PeerRoundState.shiftLastCommit]

theorem newRoundStep_proposal_of_ne
    (h : ¬(ps.prs.height.val = msg.height.val ∧ ps.prs.round.val = msg.round.val)) :
    (ps.newRoundStep startTime msg).prs.proposal = false ∧
      (ps.newRoundStep startTime msg).prs.proposalBlockHeader = 0 ∧
      (ps.newRoundStep startTime msg).prs.proposalPOLRound.val = -1 ∧
      (ps.newRoundStep startTime msg).prs.proposalPOL = none := by
  have hc : (!ps.prs.height.equals msg.height || !ps.prs.round.equals msg.round) = true := by
    simp only [BigInt.equals, Bool.or_eq_true, Bool.not_eq_true', beq_eq_false_iff_ne]
    exact not_and_or.mp h
  simp only [newRoundStep, hc, if_true]
  split_ifs <;> simp [PeerRoundState.shiftLastCommit, PeerRoundState.resetRound]

theorem decoded_same_height_resets_commits (hacc : ps.prs.hrs < msg.hrs)
    (hh : msg.height.val = ps.prs.height.val) (hptr : msg.height.ref ≠ ps.prs.height.ref) :
    let prs := (ps.applyNewRoundStep startTime msg).prs
    prs.lastCommitRound = msg.lastCommitRound ∧ prs.lastCommit = none ∧
      prs.catchupCommitRound.val = -1 ∧ prs.catchupCommit = none ∧
      (msg.round.val = ps.prs.round.val →
        prs.proposal = ps.prs.proposal ∧ prs.proposalBlockHeader = ps.prs.proposalBlockHeader ∧
        prs.proposalPOLRound = ps.prs.proposalPOLRound ∧ prs.proposalPOL = ps.prs.proposalPOL ∧
        prs.prevotes = ps.prs.prevotes ∧ prs.precommits = ps.prs.precommits) ∧
      (msg.round.val ≠ ps.prs.round.val →
        prs.proposal = false ∧ prs.proposalBlockHeader = 0 ∧ prs.proposalPOLRound.val = -1 ∧
        prs.proposalPOL = none ∧ prs.prevotes = none ∧ prs.precommits = none) := by
  have hp : ps.prs.height.ptrEq msg.height = false := by
    simpa [BigInt.ptrEq] using fun h => hptr h.symm
  have hne : ¬ps.prs.height.val + 1 = ps.prs.height.val := by omega
  rw [applyNewRoundStep_of_lt _ _ _ hacc]
  by_cases hr : ps.prs.round.val = msg.round.val
  · simp [newRoundStep, hp, BigInt.equals, hh, hr, PeerRoundState.shiftLastCommit, hne]
  · simp [newRoundStep, hp, BigInt.equals, hh, hr, Ne.symm hr, PeerRoundState.shiftLastCommit,
      PeerRoundState.resetRound, hne]

def catchupMirror : PeerState :=
  { newPeerState with
    prs := { newPeerState.prs with
      height := ⟨5, 5⟩, round := ⟨6, 1⟩, step := 4, lastCommitRound := ⟨7, 0⟩
      lastCommit := some 1, catchupCommitRound := ⟨8, 3⟩, catchupCommit := some 0 }
    bitArrays := [[true, false, true], [true, true, false]]
    alloc := 9 }

def catchupMessage : NewRoundStepMessage := ⟨⟨9, 5⟩, ⟨10, 3⟩, 6, 0, ⟨11, 0⟩⟩

theorem catchup_restore_skipped :
    catchupMirror.prs.hrs < catchupMessage.hrs ∧
      catchupMessage.height.val = catchupMirror.prs.height.val ∧
      catchupMessage.height.ref ≠ catchupMirror.prs.height.ref ∧
      catchupMessage.round.val = catchupMirror.prs.catchupCommitRound.val ∧
      (catchupMirror.applyNewRoundStep 0 catchupMessage).prs.precommits = none ∧
      (catchupMirror.applyNewRoundStep 0 catchupMessage).prs.lastCommit = none ∧
      (catchupMirror.applyNewRoundStep 0 catchupMessage).prs.catchupCommit = none :=
  have h := decoded_same_height_resets_commits 0 catchupMessage catchupMirror (by decide) rfl
    (by decide)
  ⟨by decide, rfl, by decide, rfl, (h.2.2.2.2.2 (by decide)).2.2.2.2.2, h.2.1, h.2.2.2.1⟩

variable (p : Proposal)

@[simp] theorem setHasProposal_mtx : (ps.setHasProposal p).mtx = ps.mtx := by
  unfold setHasProposal; split_ifs <;> rfl

@[simp] theorem setHasProposal_bitArrays : (ps.setHasProposal p).bitArrays = ps.bitArrays := by
  unfold setHasProposal; split_ifs <;> rfl

@[simp] theorem setHasProposal_height : (ps.setHasProposal p).prs.height = ps.prs.height := by
  unfold setHasProposal; split_ifs <;> rfl

@[simp] theorem setHasProposal_round : (ps.setHasProposal p).prs.round = ps.prs.round := by
  unfold setHasProposal; split_ifs <;> rfl

@[simp] theorem setHasProposal_step : (ps.setHasProposal p).prs.step = ps.prs.step := by
  unfold setHasProposal; split_ifs <;> rfl

theorem setHasProposal_of_fresh (hh : ps.prs.height.val = p.height.val)
    (hr : ps.prs.round.val = p.round.val) (hp : ps.prs.proposal = false) :
    (ps.setHasProposal p).prs.proposal = true ∧
      (ps.setHasProposal p).prs.proposalBlockHeader = p.blockHeaderHash ∧
      (ps.setHasProposal p).prs.proposalPOLRound = p.polRound ∧
      (ps.setHasProposal p).prs.proposalPOL = none := by
  simp [setHasProposal, BigInt.equals, hh, hr, hp]

theorem setHasProposal_of_not_fresh
    (h : ¬(ps.prs.height.val = p.height.val ∧ ps.prs.round.val = p.round.val ∧
      ps.prs.proposal = false)) :
    ps.setHasProposal p = ps := by
  unfold setHasProposal
  split_ifs with h1 h2 <;> first | rfl | simp_all

theorem setHasProposal_proposal_mono (h : ps.prs.proposal = true) :
    ps.setHasProposal p = ps :=
  setHasProposal_of_not_fresh ps p (by simp [h])

variable (height round index : BigInt) (type : UInt8)

@[simp] theorem setHasVote_prs : (ps.setHasVote height round type index).prs = ps.prs := by
  unfold setHasVote; split <;> rfl

@[simp] theorem setHasVote_mtx : (ps.setHasVote height round type index).mtx = ps.mtx := by
  unfold setHasVote; split <;> rfl

@[simp] theorem setHasVote_alloc : (ps.setHasVote height round type index).alloc = ps.alloc := by
  unfold setHasVote; split <;> rfl

variable (hv : HasVoteMessage)

@[simp] theorem applyHasVoteMessage_prs : (ps.applyHasVoteMessage hv).prs = ps.prs := by
  unfold applyHasVoteMessage; split <;> simp

@[simp] theorem applyHasVoteMessage_mtx : (ps.applyHasVoteMessage hv).mtx = ps.mtx := by
  unfold applyHasVoteMessage; split <;> simp

theorem newRoundStep_noBitArrays (h : ps.prs.NoBitArrays) :
    (ps.newRoundStep startTime msg).prs.NoBitArrays := by
  obtain ⟨h1, h2, h3, h4, h5⟩ := h
  simp only [newRoundStep]
  split_ifs <;>
    simp [PeerRoundState.NoBitArrays, PeerRoundState.resetRound, PeerRoundState.shiftLastCommit, *]

theorem setHasProposal_noBitArrays (h : ps.prs.NoBitArrays) :
    (ps.setHasProposal p).prs.NoBitArrays := by
  unfold setHasProposal
  split_ifs
  · exact h
  · exact h
  · exact ⟨rfl, h.2⟩

theorem setHasVote_of_noBitArrays (h : ps.prs.NoBitArrays) :
    ps.setHasVote height round type index = ps := by
  simp [setHasVote, PeerRoundState.getVoteBitArray_of_noBitArrays h]

end Lemmas

end PeerState

end Kardia
