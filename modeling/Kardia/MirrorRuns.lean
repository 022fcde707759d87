import Kardia.PeerState

namespace Kardia

inductive MirrorOp where
  | receiveNewRoundStep (startTime : Int) (msg : NewRoundStepMessage)
  | setHasProposal (proposal : Proposal)
  | setHasVote (vote : Vote)
  | applyHasVoteMessage (msg : HasVoteMessage)
  | getRoundState
deriving DecidableEq, Repr

namespace MirrorOp

def apply : MirrorOp → PeerState → PeerState
  | receiveNewRoundStep startTime msg, ps => ps.applyNewRoundStep startTime msg
  | setHasProposal p, ps => ps.setHasProposal p
  | setHasVote v, ps => ps.setHasVote v.height v.round v.type v.validatorIndex
  | applyHasVoteMessage msg, ps => ps.applyHasVoteMessage msg
  | getRoundState, ps => ps

def newRoundStep? : MirrorOp → Option NewRoundStepMessage
  | receiveNewRoundStep _ msg => some msg
  | _ => none

def proposals : MirrorOp → List Proposal
  | setHasProposal p => [p]
  | _ => []

end MirrorOp

def PeerState.run (ps : PeerState) (ops : List MirrorOp) : PeerState :=
  ops.foldl (fun ps op => op.apply ps) ps

def newRoundSteps (ops : List MirrorOp) : List NewRoundStepMessage :=
  ops.filterMap MirrorOp.newRoundStep?

def maxHRS (a : HRS) (msgs : List NewRoundStepMessage) : HRS :=
  msgs.foldl (fun a m => max a m.hrs) a

open PeerState

section MaxHRS

theorem le_maxHRS (a : HRS) (l : List NewRoundStepMessage) : a ≤ maxHRS a l := by
  induction l generalizing a with
  | nil => exact le_rfl
  | cons m l ih => exact (le_max_left a m.hrs).trans (ih _)

theorem hrs_le_maxHRS (a : HRS) (l : List NewRoundStepMessage) (m : NewRoundStepMessage)
    (hm : m ∈ l) : m.hrs ≤ maxHRS a l := by
  induction l generalizing a with
  | nil => cases hm
  | cons n l ih =>
    rcases List.mem_cons.1 hm with rfl | hm
    · exact (le_max_right a m.hrs).trans (le_maxHRS _ _)
    · exact ih _ hm

theorem maxHRS_mem (a : HRS) (l : List NewRoundStepMessage) :
    maxHRS a l = a ∨ ∃ m ∈ l, maxHRS a l = m.hrs := by
  induction l generalizing a with
  | nil => exact .inl rfl
  | cons n l ih =>
    rcases ih (max a n.hrs) with h | ⟨m, hm, h⟩
    · rcases max_choice a n.hrs with h' | h'
      · exact .inl (h.trans h')
      · exact .inr ⟨n, List.mem_cons_self _ _, h.trans h'⟩
    · exact .inr ⟨m, List.mem_cons_of_mem _ hm, h⟩

instance : RightCommutative (fun (a : HRS) (m : NewRoundStepMessage) => max a m.hrs) :=
  ⟨fun _ _ _ => sup_right_comm _ _ _⟩

theorem maxHRS_perm (a : HRS) {l l' : List NewRoundStepMessage} (h : l.Perm l') :
    maxHRS a l = maxHRS a l' :=
  h.foldl_eq a

end MaxHRS

section Runs

@[simp] theorem run_nil (ps : PeerState) : ps.run [] = ps := rfl

@[simp] theorem run_cons (ps : PeerState) (op : MirrorOp) (ops : List MirrorOp) :
    ps.run (op :: ops) = (op.apply ps).run ops := rfl

theorem run_append (ps : PeerState) (ops ops' : List MirrorOp) :
    ps.run (ops ++ ops') = (ps.run ops).run ops' :=
  List.foldl_append _ _ _ _

theorem hrs_apply (op : MirrorOp) (ps : PeerState) :
    (op.apply ps).prs.hrs = maxHRS ps.prs.hrs op.newRoundStep?.toList := by
  cases op with
  | receiveNewRoundStep startTime msg =>
    simp [MirrorOp.apply, MirrorOp.newRoundStep?, maxHRS, hrs_applyNewRoundStep]
  | _ => simp [MirrorOp.apply, MirrorOp.newRoundStep?, maxHRS, PeerRoundState.hrs]

theorem hrs_run (ps : PeerState) (ops : List MirrorOp) :
    (ps.run ops).prs.hrs = maxHRS ps.prs.hrs (newRoundSteps ops) := by
  induction ops generalizing ps with
  | nil => rfl
  | cons op ops ih =>
    have hs : newRoundSteps (op :: ops) = op.newRoundStep?.toList ++ newRoundSteps ops := by
      cases op <;> rfl
    rw [run_cons, ih, hrs_apply, hs, maxHRS, maxHRS, maxHRS, List.foldl_append]

theorem hrs_run_eq_max (ops : List MirrorOp) :
    IsGreatest {x | x = toLex ((0 : Int), toLex ((-1 : Int), 0)) ∨
        ∃ m ∈ newRoundSteps ops, x = m.hrs} (newPeerState.run ops).prs.hrs ∧
      (∀ ops', (newRoundSteps ops').Perm (newRoundSteps ops) →
        (newPeerState.run ops').prs.hrs = (newPeerState.run ops).prs.hrs) ∧
      ∀ more, (newPeerState.run ops).prs.hrs ≤ (newPeerState.run (ops ++ more)).prs.hrs := by
  have h0 : newPeerState.prs.hrs = toLex ((0 : Int), toLex ((-1 : Int), 0)) := rfl
  refine ⟨⟨?_, ?_⟩, fun ops' hp => ?_, fun more => ?_⟩
  · rw [hrs_run, h0]
    rcases maxHRS_mem (toLex (0, toLex (-1, 0))) (newRoundSteps ops) with h | ⟨m, hm, h⟩
    · exact .inl h
    · exact .inr ⟨m, hm, h⟩
  · rintro x (rfl | ⟨m, hm, rfl⟩) <;> rw [hrs_run, h0]
    · exact le_maxHRS _ _
    · exact hrs_le_maxHRS _ _ _ hm
  · rw [hrs_run, hrs_run, maxHRS_perm _ hp]
  · rw [run_append, hrs_run (newPeerState.run ops)]
    exact le_maxHRS _ _

theorem newPeerState_noBitArrays : newPeerState.prs.NoBitArrays := by
  simp [PeerRoundState.NoBitArrays, newPeerState]

theorem apply_noBitArrays (op : MirrorOp) {ps : PeerState} (h : ps.prs.NoBitArrays) :
    (op.apply ps).prs.NoBitArrays := by
  cases op with
  | receiveNewRoundStep startTime msg =>
    simp only [MirrorOp.apply, applyNewRoundStep]
    split_ifs
    · exact h
    · exact newRoundStep_noBitArrays _ _ _ h
  | setHasProposal p => exact setHasProposal_noBitArrays _ _ h
  | setHasVote v => simpa [MirrorOp.apply] using h
  | applyHasVoteMessage m => simpa [MirrorOp.apply] using h
  | getRoundState => exact h

theorem run_noBitArrays (ops : List MirrorOp) {ps : PeerState} (h : ps.prs.NoBitArrays) :
    (ps.run ops).prs.NoBitArrays := by
  induction ops generalizing ps with
  | nil => exact h
  | cons op ops ih => exact ih (apply_noBitArrays op h)

theorem run_records_no_vote (ops : List MirrorOp) :
    (newPeerState.run ops).prs.NoBitArrays ∧
      (∀ v, (MirrorOp.setHasVote v).apply (newPeerState.run ops) = newPeerState.run ops) ∧
      ∀ m, (MirrorOp.applyHasVoteMessage m).apply (newPeerState.run ops) =
        newPeerState.run ops := by
  have h := run_noBitArrays ops newPeerState_noBitArrays
  refine ⟨h, fun v => setHasVote_of_noBitArrays _ _ _ _ _ h, fun m => ?_⟩
  simp only [MirrorOp.apply, applyHasVoteMessage]
  split
  · rfl
  · exact setHasVote_of_noBitArrays _ _ _ _ _ h

theorem setHasVote_prevotes_nil :
    let ps : PeerState := newPeerState.run [.receiveNewRoundStep 0 ⟨⟨5, 1⟩, ⟨6, 0⟩, 3, 0, ⟨7, -1⟩⟩]
    let v : Vote := ⟨⟨8, 1⟩, ⟨9, 0⟩, voteTypePrevote, ⟨10, 0⟩⟩
    ps.prs.height.val = v.height.val ∧ ps.prs.round.val = v.round.val ∧
      isVoteTypeValid v.type = true ∧ 0 ≤ v.validatorIndex.val ∧ v.validatorIndex.val < 2 ^ 31 ∧
      ((MirrorOp.setHasVote v).apply ps).prs.prevotes = none := by
  decide

theorem newRoundStep_drops_precommits :
    let ps : PeerState :=
      { newPeerState with
        prs := { newPeerState.prs with
          height := ⟨5, 5⟩, round := ⟨6, 2⟩, step := 6, precommits := some 0 }
        bitArrays := [[true, false, true]], alloc := 10 }
    let msg : NewRoundStepMessage := ⟨⟨11, 6⟩, ⟨12, 0⟩, 1, 0, ⟨13, 2⟩⟩
    ps.prs.hrs < msg.hrs ∧ ps.prs.height.val + 1 = msg.height.val ∧
      ps.prs.round.val = msg.lastCommitRound.val ∧ ps.prs.precommits = some 0 ∧
      (ps.applyNewRoundStep 0 msg).prs.lastCommit = none := by
  decide

end Runs

section Proposals

def proposalStep (sh : PeerState × List Proposal) (op : MirrorOp) : PeerState × List Proposal :=
  let ps := op.apply sh.1
  (ps, (if ps.prs.height.val = sh.1.prs.height.val ∧ ps.prs.round.val = sh.1.prs.round.val
    then sh.2 else []) ++ op.proposals)

def proposalsSinceRoundChange (ops : List MirrorOp) : List Proposal :=
  (ops.foldl proposalStep (newPeerState, [])).2

theorem foldl_proposalStep_fst (ops : List MirrorOp) (ps : PeerState) (hist : List Proposal) :
    (ops.foldl proposalStep (ps, hist)).1 = ps.run ops := by
  induction ops generalizing ps hist with
  | nil => rfl
  | cons op ops ih => exact ih _ _

def ProposalInv (prs : PeerRoundState) (hist : List Proposal) : Prop :=
  (prs.proposal = false → prs.proposalBlockHeader = 0 ∧ prs.proposalPOLRound.val = -1 ∧
      prs.proposalPOL = none ∧ ∀ p ∈ hist, p.isFor prs = false) ∧
    (prs.proposal = true → ∃ p, hist.find? (·.isFor prs) = some p ∧
      prs.proposalBlockHeader = p.blockHeaderHash ∧ prs.proposalPOLRound = p.polRound)

theorem isFor_congr {prs prs' : PeerRoundState} (hh : prs'.height.val = prs.height.val)
    (hr : prs'.round.val = prs.round.val) (p : Proposal) : p.isFor prs' = p.isFor prs := by
  rw [Bool.eq_iff_iff, Proposal.isFor_iff, Proposal.isFor_iff, hh, hr]

theorem proposalInv_congr {prs prs' : PeerRoundState} {hist : List Proposal}
    (hh : prs'.height.val = prs.height.val) (hr : prs'.round.val = prs.round.val)
    (hp : prs'.proposal = prs.proposal) (hb : prs'.proposalBlockHeader = prs.proposalBlockHeader)
    (hpr : prs'.proposalPOLRound = prs.proposalPOLRound) (hpol : prs'.proposalPOL = prs.proposalPOL)
    (h : ProposalInv prs hist) : ProposalInv prs' hist := by
  simpa only [ProposalInv, hp, hb, hpr, hpol, isFor_congr hh hr] using h

theorem proposalInv_newRoundStep (startTime : Int) (msg : NewRoundStepMessage) {ps : PeerState}
    {hist : List Proposal} (h : ProposalInv ps.prs hist) :
    ProposalInv (proposalStep (ps, hist) (.receiveNewRoundStep startTime msg)).1.prs
      (proposalStep (ps, hist) (.receiveNewRoundStep startTime msg)).2 := by
  rcases le_or_lt msg.hrs ps.prs.hrs with hle | hlt
  · simpa [proposalStep, MirrorOp.apply, MirrorOp.proposals, applyNewRoundStep_of_le _ _ _ hle]
      using h
  · simp only [proposalStep, MirrorOp.apply, MirrorOp.proposals, List.append_nil,
      applyNewRoundStep_of_lt _ _ _ hlt, newRoundStep_height, newRoundStep_round]
    by_cases hs : ps.prs.height.val = msg.height.val ∧ ps.prs.round.val = msg.round.val
    · obtain ⟨h1, h2, h3, h4⟩ := newRoundStep_proposal_of_same startTime msg ps hs.1 hs.2
      rw [if_pos ⟨hs.1.symm, hs.2.symm⟩]
      exact proposalInv_congr (by simp [hs.1]) (by simp [hs.2]) h1 h2 h3 h4 h
    · obtain ⟨h1, h2, h3, h4⟩ := newRoundStep_proposal_of_ne startTime msg ps hs
      rw [if_neg (fun h' => hs ⟨h'.1.symm, h'.2.symm⟩)]
      exact ⟨fun _ => ⟨h2, h3, h4, by simp⟩, fun ht => by simp [h1] at ht⟩

theorem proposalInv_setHasProposal (p : Proposal) {ps : PeerState} {hist : List Proposal}
    (h : ProposalInv ps.prs hist) :
    ProposalInv (proposalStep (ps, hist) (.setHasProposal p)).1.prs
      (proposalStep (ps, hist) (.setHasProposal p)).2 := by
  simp only [proposalStep, MirrorOp.apply, MirrorOp.proposals, setHasProposal_height,
    setHasProposal_round, and_self, if_true]
  by_cases hf : ps.prs.height.val = p.height.val ∧ ps.prs.round.val = p.round.val ∧
      ps.prs.proposal = false
  · obtain ⟨h1, h2, h3, h4⟩ := setHasProposal_of_fresh ps p hf.1 hf.2.1 hf.2.2
    have hfor : ∀ q : Proposal, q.isFor (ps.setHasProposal p).prs = q.isFor ps.prs :=
      isFor_congr (by rw [setHasProposal_height]) (by rw [setHasProposal_round])
    have hnone : hist.find? (·.isFor ps.prs) = none :=
      List.find?_eq_none.2 fun q hq => by simp [(h.1 hf.2.2).2.2.2 q hq]
    refine ⟨fun hq => by simp [h1] at hq, fun _ => ⟨p, ?_, h2, h3⟩⟩
    simp [hfor, List.find?_append, hnone, hf.1, hf.2.1]
  · rw [setHasProposal_of_not_fresh ps p hf]
    refine ⟨fun hq => ⟨(h.1 hq).1, (h.1 hq).2.1, (h.1 hq).2.2.1, fun q hq' => ?_⟩,
      fun ht => ?_⟩
    · rcases List.mem_append.1 hq' with hq' | hq'
      · exact (h.1 hq).2.2.2 q hq'
      · rw [List.mem_singleton.1 hq', Bool.eq_false_iff, ne_eq, Proposal.isFor_iff]
        exact fun hc => hf ⟨hc.1, hc.2, hq⟩
    · obtain ⟨q, hq, hb, hr⟩ := h.2 ht
      exact ⟨q, by rw [List.find?_append, hq]; rfl, hb, hr⟩

theorem proposalInv_step (op : MirrorOp) {ps : PeerState} {hist : List Proposal}
    (h : ProposalInv ps.prs hist) :
    ProposalInv (proposalStep (ps, hist) op).1.prs (proposalStep (ps, hist) op).2 := by
  cases op with
  | receiveNewRoundStep startTime msg => exact proposalInv_newRoundStep startTime msg h
  | setHasProposal p => exact proposalInv_setHasProposal p h
  | setHasVote v => simpa [proposalStep, MirrorOp.apply, MirrorOp.proposals] using h
  | applyHasVoteMessage m => simpa [proposalStep, MirrorOp.apply, MirrorOp.proposals] using h
  | getRoundState => simpa [proposalStep, MirrorOp.apply, MirrorOp.proposals] using h

theorem proposalInv_foldl (ops : List MirrorOp) {ps : PeerState} {hist : List Proposal}
    (h : ProposalInv ps.prs hist) :
    ProposalInv (ops.foldl proposalStep (ps, hist)).1.prs
      (ops.foldl proposalStep (ps, hist)).2 := by
  induction ops generalizing ps hist with
  | nil => exact h
  | cons op ops ih => exact ih (proposalInv_step op h)

theorem proposal_fields_of_run (ops : List MirrorOp) :
    let prs := (newPeerState.run ops).prs
    (prs.proposal = false → prs.proposalBlockHeader = 0 ∧ prs.proposalPOLRound.val = -1 ∧
        prs.proposalPOL = none) ∧
      (prs.proposal = true → ∃ p, (proposalsSinceRoundChange ops).find? (·.isFor prs) = some p ∧
        prs.proposalBlockHeader = p.blockHeaderHash ∧ prs.proposalPOLRound = p.polRound) := by
  have h0 : ProposalInv newPeerState.prs [] :=
    ⟨fun _ => ⟨rfl, rfl, rfl, by simp⟩, fun h => by simp [newPeerState] at h⟩
  have h := proposalInv_foldl ops h0
  rw [foldl_proposalStep_fst] at h
  exact ⟨fun hq => ⟨(h.1 hq).1, (h.1 hq).2.1, (h.1 hq).2.2.1⟩, h.2⟩

end Proposals

end Kardia
