import Kardia.Reactor

/-!
`gossipDataRoutine` for one peer, interleaved with the inbound handlers on that peer's
mirror and with the local consensus state moving on. The routine's pass is cut where
other goroutines can run: after the snapshots, after the send, after `SetHasProposal`.
-/

namespace Kardia

open PeerState ConsensusReactor

def RoundState.WellFormed (rs : RoundState) : Prop :=
  ∀ p, rs.proposal = some p → p.height.val = rs.height.val ∧ p.round.val = rs.round.val

inductive GossipPc where
  | top
  | send (rs : RoundState) (prs : PeerRoundState) (p : Proposal)
  | mark (p : Proposal)
  | stopped
  | panicked

structure SentProposal where
  rs : RoundState
  prs : PeerRoundState
  proposal : Proposal

structure GossipSystem where
  rs : RoundState
  ps : PeerState
  pc : GossipPc
  sent : List SentProposal

def GossipPc.ofAction (rs : RoundState) (prs : PeerRoundState) : GossipAction → GossipPc
  | .stop => .stopped
  | .panic => .panicked
  | .sleep => .top
  | .sendProposal m _ => .send rs prs m.proposal

inductive GossipStep : GossipSystem → GossipSystem → Prop where
  | snapshot (s : GossipSystem) (isAlive running : Bool) (h : s.pc = .top) :
      GossipStep s
        { s with pc := .ofAction s.rs s.ps.prs (gossipData isAlive running s.rs s.ps.prs) }
  | send (s : GossipSystem) (rs prs p) (h : s.pc = .send rs prs p) :
      GossipStep s { s with pc := .mark p, sent := s.sent ++ [⟨rs, prs, p⟩] }
  | mark (s : GossipSystem) (p : Proposal) (h : s.pc = .mark p) :
      GossipStep s { s with ps := s.ps.setHasProposal p, pc := .top }
  | inbound (s : GossipSystem) (op : MirrorOp) : GossipStep s { s with ps := op.apply s.ps }
  | advance (s : GossipSystem) (rs : RoundState) (h : rs.WellFormed) :
      GossipStep s { s with rs := rs }

inductive GossipReachable : GossipSystem → Prop where
  | init (rs : RoundState) (h : rs.WellFormed) : GossipReachable ⟨rs, newPeerState, .top, []⟩
  | step {s s' : GossipSystem} : GossipReachable s → GossipStep s s' → GossipReachable s'

def PeerRoundState.hr (prs : PeerRoundState) : Int ×ₗ Int :=
  toLex (prs.height.val, prs.round.val)

def Proposal.hr (p : Proposal) : Int ×ₗ Int := toLex (p.height.val, p.round.val)

section Mirror

theorem hr_le_of_hrs_le {a b : PeerRoundState} (h : a.hrs ≤ b.hrs) : a.hr ≤ b.hr := by
  simp only [PeerRoundState.hrs, hrs_le_iff] at h
  simp only [PeerRoundState.hr, Prod.Lex.le_iff]
  omega

theorem hr_le_apply (op : MirrorOp) (ps : PeerState) : ps.prs.hr ≤ (op.apply ps).prs.hr := by
  apply hr_le_of_hrs_le
  rw [hrs_apply]
  exact le_maxHRS _ _

theorem hr_eq_iff {a b : PeerRoundState} :
    a.hr = b.hr ↔ a.height.val = b.height.val ∧ a.round.val = b.round.val := by
  simp [PeerRoundState.hr]

theorem proposal_apply (op : MirrorOp) {ps : PeerState} (hp : ps.prs.proposal = true)
    (hr : (op.apply ps).prs.hr = ps.prs.hr) : (op.apply ps).prs.proposal = true := by
  cases op with
  | receiveNewRoundStep startTime msg =>
    rcases le_or_lt msg.hrs ps.prs.hrs with hle | hlt
    · simpa [MirrorOp.apply, applyNewRoundStep_of_le _ _ _ hle] using hp
    · simp only [MirrorOp.apply, applyNewRoundStep_of_lt _ _ _ hlt, hr_eq_iff,
        newRoundStep_height, newRoundStep_round] at hr ⊢
      rw [(newRoundStep_proposal_of_same startTime msg ps hr.1.symm hr.2.symm).1, hp]
  | setHasProposal p => simp [MirrorOp.apply, setHasProposal_proposal_mono _ _ hp, hp]
  | _ => simpa [MirrorOp.apply] using hp

def Blocked (ps : PeerState) (p : Proposal) : Prop :=
  (ps.prs.hr = p.hr ∧ ps.prs.proposal = true) ∨ p.hr < ps.prs.hr

theorem blocked_apply (op : MirrorOp) {ps : PeerState} {p : Proposal} (h : Blocked ps p) :
    Blocked (op.apply ps) p := by
  have hle := hr_le_apply op ps
  rcases h with ⟨he, hp⟩ | hlt
  · rcases hle.lt_or_eq with hlt | heq
    · exact .inr (he ▸ hlt)
    · exact .inl ⟨heq.symm.trans he, proposal_apply op hp heq.symm⟩
  · exact .inr (hlt.trans_le hle)

theorem blocked_setHasProposal (ps : PeerState) (p : Proposal) (h : p.hr ≤ ps.prs.hr) :
    Blocked (ps.setHasProposal p) p := by
  have hhr : (ps.setHasProposal p).prs.hr = ps.prs.hr := by
    simp [PeerRoundState.hr]
  rcases h.lt_or_eq with hlt | heq
  · exact .inr (hhr ▸ hlt)
  · refine .inl ⟨hhr.trans heq.symm, ?_⟩
    obtain ⟨hh, hr⟩ : ps.prs.height.val = p.height.val ∧ ps.prs.round.val = p.round.val := by
      simpa [PeerRoundState.hr, Proposal.hr] using heq.symm
    cases hp : ps.prs.proposal
    · exact (setHasProposal_of_fresh ps p hh hr hp).1
    · simpa [setHasProposal_proposal_mono ps p hp] using hp

end Mirror

section Invariant

theorem gossipData_send {isAlive running : Bool} {rs : RoundState} {prs : PeerRoundState}
    {m : ProposalMessage} {pol : Option ProposalPOLMessage}
    (h : gossipData isAlive running rs prs = .sendProposal m pol) :
    rs.height.val = prs.height.val ∧ rs.round.val = prs.round.val ∧ prs.proposal = false ∧
      rs.proposal = some m.proposal := by
  unfold gossipData at h
  split at h
  case isTrue => cases h
  case isFalse =>
    split at h
    case isTrue => cases h
    case isFalse =>
      split at h
      case isTrue => cases h
      case isFalse hsame =>
        simp only [Bool.or_eq_true, Bool.not_eq_true', not_or, Bool.not_eq_false, BigInt.equals,
          beq_iff_eq] at hsame
        split at h
        case h_2 => cases h
        case h_1 p hp =>
          split at h
          case isFalse => cases h
          case isTrue hprop =>
            cases h
            exact ⟨hsame.1, hsame.2, by simpa using hprop, hp⟩

def SentProposal.Valid (e : SentProposal) : Prop :=
  e.rs.height.val = e.prs.height.val ∧ e.rs.round.val = e.prs.round.val ∧
    e.prs.proposal = false ∧ e.rs.proposal = some e.proposal

def Covered (s : GossipSystem) (p : Proposal) : Prop :=
  (s.pc = .mark p ∧ p.hr ≤ s.ps.prs.hr) ∨ Blocked s.ps p

structure GossipInv (s : GossipSystem) : Prop where
  wf : s.rs.WellFormed
  valid : ∀ e ∈ s.sent, e.Valid
  nodup : (s.sent.map (·.proposal)).Nodup
  covered : ∀ e ∈ s.sent, Covered s e.proposal
  pending : ∀ rs prs p, s.pc = .send rs prs p →
    p ∉ s.sent.map (·.proposal) ∧ p.hr ≤ s.ps.prs.hr ∧ SentProposal.Valid ⟨rs, prs, p⟩

theorem blocked_of_covered {s : GossipSystem} {p : Proposal} (h : Covered s p)
    (hpc : ∀ q, s.pc ≠ .mark q) : Blocked s.ps p :=
  h.resolve_left fun ⟨hm, _⟩ => hpc p hm

theorem gossipInv_snapshot {s : GossipSystem} (h : GossipInv s) (isAlive running : Bool)
    (hpc : s.pc = .top) :
    GossipInv
      { s with pc := .ofAction s.rs s.ps.prs (gossipData isAlive running s.rs s.ps.prs) } := by
  have hb : ∀ e ∈ s.sent, Blocked s.ps e.proposal := fun e he =>
    blocked_of_covered (h.covered e he) (by simp [hpc])
  refine ⟨h.wf, h.valid, h.nodup, fun e he => .inr (hb e he), fun rs prs p hs => ?_⟩
  cases hg : gossipData isAlive running s.rs s.ps.prs with
  | sendProposal m pol =>
    simp only [hg, GossipPc.ofAction, GossipPc.send.injEq] at hs
    obtain ⟨rfl, rfl, rfl⟩ := hs
    obtain ⟨hh, hr, hp, hq⟩ := gossipData_send hg
    obtain ⟨hph, hpr⟩ := h.wf _ hq
    have he : m.proposal.hr = s.ps.prs.hr := by
      simp [Proposal.hr, PeerRoundState.hr, hph, hpr, hh, hr]
    refine ⟨fun hm => ?_, he.le, hh, hr, hp, hq⟩
    obtain ⟨e, he', hep⟩ := List.mem_map.1 hm
    rcases hb e he' with ⟨_, hp'⟩ | hlt
    · simp [hp] at hp'
    · exact absurd he (hep ▸ ne_of_lt hlt)
  | _ => simp [hg, GossipPc.ofAction] at hs

theorem gossipInv_step {s s' : GossipSystem} (h : GossipInv s) (hs : GossipStep s s') :
    GossipInv s' := by
  cases hs with
  | snapshot isAlive running hpc => exact gossipInv_snapshot h isAlive running hpc
  | send rs prs p hpc =>
    obtain ⟨hn, hle, hv⟩ := h.pending rs prs p hpc
    refine ⟨h.wf, fun e he => ?_, ?_, fun e he => ?_, fun _ _ _ hm => by simp at hm⟩
    · rcases List.mem_append.1 he with he | he
      · exact h.valid e he
      · rw [List.mem_singleton.1 he]
        exact hv
    · simp [List.nodup_append, h.nodup, hn]
    · rcases List.mem_append.1 he with he | he
      · exact .inr (blocked_of_covered (s := s) (h.covered e he) (by simp [hpc]))
      · rw [List.mem_singleton.1 he]
        exact .inl ⟨rfl, hle⟩
  | mark p hpc =>
    refine ⟨h.wf, h.valid, h.nodup, fun e he => .inr ?_, fun _ _ _ hm => by simp at hm⟩
    rcases h.covered e he with ⟨hm, hle⟩ | hb
    · rw [hpc, GossipPc.mark.injEq] at hm
      exact hm ▸ blocked_setHasProposal s.ps p (hm ▸ hle)
    · exact blocked_apply (.setHasProposal p) hb
  | inbound op =>
    refine ⟨h.wf, h.valid, h.nodup, fun e he => ?_, fun rs prs p hpc => ?_⟩
    · rcases h.covered e he with ⟨hm, hle⟩ | hb
      · exact .inl ⟨hm, hle.trans (hr_le_apply op s.ps)⟩
      · exact .inr (blocked_apply op hb)
    · obtain ⟨hn, hle, hv⟩ := h.pending rs prs p hpc
      exact ⟨hn, hle.trans (hr_le_apply op s.ps), hv⟩
  | advance rs hwf => exact ⟨hwf, h.valid, h.nodup, h.covered, h.pending⟩

theorem gossipInv_reachable {s : GossipSystem} (h : GossipReachable s) : GossipInv s := by
  induction h with
  | init rs hwf => exact ⟨hwf, by simp, by simp, by simp, fun _ _ _ h => by simp at h⟩
  | step _ hs ih => exact gossipInv_step ih hs

theorem gossip_sends_proposal_once {s : GossipSystem} (h : GossipReachable s) :
    (s.sent.map (·.proposal)).Nodup ∧
      ∀ e ∈ s.sent, e.rs.height.val = e.prs.height.val ∧ e.rs.round.val = e.prs.round.val ∧
        e.prs.proposal = false ∧ e.rs.proposal = some e.proposal :=
  ⟨(gossipInv_reachable h).nodup, (gossipInv_reachable h).valid⟩

theorem gossip_sends_sample_proposal :
    ∃ s, GossipReachable s ∧ s.sent.length = 1 ∧ (s.sent.map (·.proposal)).Nodup ∧
      ∀ e ∈ s.sent, e.rs.height.val = e.prs.height.val ∧ e.rs.round.val = e.prs.round.val ∧
        e.prs.proposal = false ∧ e.rs.proposal = some e.proposal :=
  have hwf : RoundState.WellFormed ⟨⟨0, 0⟩, ⟨1, 0⟩, some ⟨⟨2, 0⟩, ⟨3, 0⟩, ⟨4, -1⟩, 7⟩,
      fun _ => none⟩ := fun _ hp => by cases hp; exact ⟨rfl, rfl⟩
  have h := GossipReachable.step (.step (.step (.init _ hwf)
    (.inbound _ (.receiveNewRoundStep 0 ⟨⟨5, 0⟩, ⟨6, 0⟩, 1, 0, ⟨7, -1⟩⟩)))
    (.snapshot _ true true rfl)) (.send _ _ _ _ rfl)
  ⟨_, h, rfl, gossip_sends_proposal_once h⟩

end Invariant

end Kardia
