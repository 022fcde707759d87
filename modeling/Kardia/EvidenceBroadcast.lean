import Kardia.Evidence

namespace Kardia

/-- `ConsensusParams.Evidence`: `MaxAgeNumBlocks` is compared with an `int64` and
`MaxAgeDuration` converted to `time.Duration`, so both are words read signed. -/
structure EvidenceParams where
  maxAgeNumBlocks : BitVec 64
  maxAgeDuration : BitVec 64
  deriving DecidableEq, Repr

structure PoolState where
  lastBlockTime : Int
  params : EvidenceParams
  deriving DecidableEq, Repr

namespace Evidence

def minDuration : Int := -2 ^ 63

def maxDuration : Int := 2 ^ 63 - 1

/-- Modelled from Go's `time.Time.Sub`: the difference in nanoseconds, saturated to the range
of `time.Duration`. -/
def timeSub (t u : Int) : BitVec 64 :=
  BitVec.ofInt 64 (max minDuration (min maxDuration (t - u)))

/-- The nanoseconds of `time.Millisecond`. -/
def millisecond : BitVec 64 := 1000000#64

variable {Ev Proto Err : Type} (ops : EvidenceOps Ev Proto Err)

/-- From `Reactor.checkSendEvidenceMessage`, lines 232-284. The peer's `PeerState`, when
it has one, is its `GetHeight()`. -/
def checkSendEvidenceMessage (peerState : Option (BitVec 64)) (st : PoolState) (ev : Ev) :
    Option (List Ev) × Bool :=
  let evHeight := ops.height ev
  match peerState with
  | none => (none, true)
  | some peerHeight =>
    let ageDuration := timeSub st.lastBlockTime (ops.time ev)
    let ageNumBlocks := peerHeight - evHeight
    if peerHeight < evHeight then (none, true)
    else if ageNumBlocks.toInt > st.params.maxAgeNumBlocks.toInt ∨
        ageDuration.toInt > (st.params.maxAgeDuration * millisecond).toInt then (none, false)
    else (some [ev], false)

/-- The send test with every height, age and bound an integer, as the spec reads it. -/
def specCheckSend (peerHeight : Option Nat) (st : PoolState) (evHeight : Nat) (evTime : Int)
    (ev : Ev) : Option (List Ev) × Bool :=
  match peerHeight with
  | none => (none, true)
  | some p =>
    if p < evHeight then (none, true)
    else if (p - evHeight : Int) ≤ st.params.maxAgeNumBlocks.toInt ∧
        st.lastBlockTime - evTime ≤ st.params.maxAgeDuration.toInt * 1000000 then (some [ev], false)
    else (none, false)

theorem bmod_two_pow_64_of_range {x : Int} (h1 : -2 ^ 63 ≤ x) (h2 : x < 2 ^ 63) :
    x.bmod (2 ^ 64) = x := by
  rw [Int.bmod_def]
  simp only [Nat.reducePow] at *
  split <;> omega

theorem toInt_lt_two_pow_63 (x : BitVec 64) : x.toInt < 2 ^ 63 := by
  have := x.isLt
  rw [BitVec.toInt_eq_toNat_cond]
  simp only [Nat.reducePow] at *
  split <;> omega

theorem toInt_sub_of_le {p e : BitVec 64} (h : e.toNat ≤ p.toNat) :
    (p - e).toInt =
      if p.toNat - e.toNat < 2 ^ 63 then (p.toNat - e.toNat : Int) else p.toNat - e.toNat - 2 ^ 64 := by
  have hp := p.isLt
  rw [BitVec.toInt_eq_toNat_cond, BitVec.toNat_sub]
  simp only [Nat.reducePow] at *
  split <;> split <;> omega

theorem toInt_mul_millisecond {d : BitVec 64} (h1 : -9223372036854 ≤ d.toInt)
    (h2 : d.toInt ≤ 9223372036854) : (d * millisecond).toInt = d.toInt * 1000000 := by
  rw [BitVec.toInt_mul, show millisecond.toInt = 1000000 by decide]
  exact bmod_two_pow_64_of_range (by omega) (by omega)

theorem timeSub_toInt (t u : Int) :
    (timeSub t u).toInt = max minDuration (min maxDuration (t - u)) := by
  rw [timeSub, BitVec.toInt_ofInt]
  apply bmod_two_pow_64_of_range <;> simp only [minDuration, maxDuration] <;> omega

theorem lt_timeSub_iff (t u b : Int) (h1 : minDuration ≤ b) (h2 : b < maxDuration) :
    b < (timeSub t u).toInt ↔ b < t - u := by
  rw [timeSub_toInt]
  omega

theorem checkSendEvidenceMessage_retry (peerState : Option (BitVec 64)) (st : PoolState) (ev : Ev)
    (h : ∀ p, peerState = some p → p.toNat < (ops.height ev).toNat) :
    checkSendEvidenceMessage ops peerState st ev = (none, true) := by
  cases peerState with
  | none => rfl
  | some p => simp [checkSendEvidenceMessage, BitVec.lt_def, h p rfl]

theorem checkSendEvidenceMessage_refines (peerState : Option (BitVec 64)) (st : PoolState)
    (ev : Ev) (hage : ∀ p, peerState = some p → p.toNat - (ops.height ev).toNat < 2 ^ 63)
    (hlo : -9223372036854 ≤ st.params.maxAgeDuration.toInt)
    (hhi : st.params.maxAgeDuration.toInt ≤ 9223372036854) :
    checkSendEvidenceMessage ops peerState st ev =
      specCheckSend (peerState.map BitVec.toNat) st (ops.height ev).toNat (ops.time ev) ev := by
  cases peerState with
  | none => rfl
  | some p =>
    by_cases hlt : p.toNat < (ops.height ev).toNat
    · simp [checkSendEvidenceMessage, specCheckSend, BitVec.lt_def, hlt]
    · have hs := toInt_sub_of_le (show (ops.height ev).toNat ≤ p.toNat by omega)
      rw [if_pos (hage p rfl)] at hs
      have hd := toInt_mul_millisecond hlo hhi
      have ht := lt_timeSub_iff st.lastBlockTime (ops.time ev)
        (st.params.maxAgeDuration.toInt * 1000000)
        (by simp only [minDuration]; omega) (by simp only [maxDuration]; omega)
      simp only [checkSendEvidenceMessage, specCheckSend, BitVec.lt_def, hlt, hs, hd,
        Option.map_some', if_false, gt_iff_lt, ht]
      split_ifs <;> first | rfl | omega

theorem checkSendEvidenceMessage_sends_wrapped_age (p : BitVec 64) (st : PoolState) (ev : Ev)
    (hwrap : 2 ^ 63 ≤ p.toNat - (ops.height ev).toNat)
    (hblocks : 0 ≤ st.params.maxAgeNumBlocks.toInt)
    (hlo : -9223372036854 ≤ st.params.maxAgeDuration.toInt)
    (hhi : st.params.maxAgeDuration.toInt ≤ 9223372036854)
    (htime : st.lastBlockTime - ops.time ev ≤ st.params.maxAgeDuration.toInt * 1000000) :
    checkSendEvidenceMessage ops (some p) st ev = (some [ev], false) ∧
      specCheckSend (some p.toNat) st (ops.height ev).toNat (ops.time ev) ev = (none, false) := by
  have hle : (ops.height ev).toNat ≤ p.toNat := by omega
  have hs := toInt_sub_of_le hle
  rw [if_neg (by omega)] at hs
  have hp := p.isLt
  have hmax := toInt_lt_two_pow_63 st.params.maxAgeNumBlocks
  have hd := toInt_mul_millisecond hlo hhi
  have ht := lt_timeSub_iff st.lastBlockTime (ops.time ev)
    (st.params.maxAgeDuration.toInt * 1000000)
    (by simp only [minDuration]; omega) (by simp only [maxDuration]; omega)
  simp only [Nat.reducePow] at hp hwrap hmax
  constructor
  · simp only [checkSendEvidenceMessage, BitVec.lt_def, hs, hd, gt_iff_lt, ht]
    rw [if_neg (by omega), if_neg (by omega)]
  · simp only [specCheckSend]
    rw [if_neg (by omega), if_neg (by omega)]

def heightTimeOps : EvidenceOps (BitVec 64 × Int) (BitVec 64 × Int) Unit where
  height := Prod.fst
  time := Prod.snd
  validateBasic _ := none
  toProto := .ok
  fromProto := .ok
  marshal _ := .ok []
  unmarshal _ := .ok []

def genesisEvidence : BitVec 64 × Int := (0#64, 0)

def samplePool : PoolState := ⟨0, ⟨100#64, 172800000#64⟩⟩

theorem old_evidence_sent_to_peer_at_two_pow_63 :
    2 ^ 63 ≤ (9223372036854775808#64).toNat - (heightTimeOps.height genesisEvidence).toNat ∧
      0 ≤ samplePool.params.maxAgeNumBlocks.toInt ∧
      -9223372036854 ≤ samplePool.params.maxAgeDuration.toInt ∧
      samplePool.params.maxAgeDuration.toInt ≤ 9223372036854 ∧
      samplePool.lastBlockTime - heightTimeOps.time genesisEvidence ≤
        samplePool.params.maxAgeDuration.toInt * 1000000 ∧
      checkSendEvidenceMessage heightTimeOps (some 9223372036854775808#64) samplePool genesisEvidence =
        (some [genesisEvidence], false) ∧
      specCheckSend (some (9223372036854775808#64).toNat) samplePool
        (heightTimeOps.height genesisEvidence).toNat (heightTimeOps.time genesisEvidence) genesisEvidence =
        (none, false) :=
  ⟨by decide, by decide, by decide, by decide, by decide,
    checkSendEvidenceMessage_sends_wrapped_age heightTimeOps _ _ _ (by decide) (by decide)
      (by decide) (by decide) (by decide)⟩

theorem checkSendEvidenceMessage_eq_some {peerState : Option (BitVec 64)} {st : PoolState} {ev : Ev}
    {evis : List Ev} {retry : Bool}
    (h : checkSendEvidenceMessage ops peerState st ev = (some evis, retry)) :
    ∃ p, peerState = some p ∧ evis = [ev] ∧ retry = false ∧ (ops.height ev).toNat ≤ p.toNat := by
  cases peerState with
  | none => simp [checkSendEvidenceMessage] at h
  | some p =>
    simp only [checkSendEvidenceMessage, BitVec.lt_def] at h
    split_ifs at h with hlt hold
    · simp at h
    · simp at h
    · simp only [Prod.mk.injEq, Option.some.injEq] at h
      exact ⟨p, rfl, h.1.symm, h.2.symm, by omega⟩

theorem specCheckSend_eq_some {p : Nat} {st : PoolState} {evHeight : Nat} {evTime : Int} {ev : Ev}
    {evis : List Ev} {retry : Bool}
    (h : specCheckSend (some p) st evHeight evTime ev = (some evis, retry)) :
    (p - evHeight : Int) ≤ st.params.maxAgeNumBlocks.toInt ∧
      st.lastBlockTime - evTime ≤ st.params.maxAgeDuration.toInt * 1000000 := by
  simp only [specCheckSend] at h
  split_ifs at h with h1 h2
  · simp at h
  · exact h2
  · simp at h

structure SentEvidence (Ev : Type) where
  evis : List Ev
  msgBytes : List UInt8
  ev : Ev
  peerState : Option (BitVec 64)
  pool : PoolState

inductive BroadcastPc where
  | loop
  | exited
  | panicked
  deriving DecidableEq, Repr

/-- One peer's `broadcastEvidenceRoutine` with what other goroutines change between its
steps: the pending list, the peer's `PeerState`, the pool's `State()`, whether the peer and
the reactor run. -/
structure BroadcastSystem (Ev : Type) where
  pending : List Ev
  peerState : Option (BitVec 64)
  pool : PoolState
  peerRunning : Bool
  reactorRunning : Bool
  next : Option Ev
  pc : BroadcastPc
  sent : List (SentEvidence Ev)

/-- Lines 201-226, once the cursor holds `ev`: `success` is what `peer.Send` returns and
`adv` the cursor after the select, nil on the tick and `next.Next()` otherwise. -/
def BroadcastSystem.iterate (s : BroadcastSystem Ev) (ev : Ev) (success : Bool)
    (adv : Option Ev) : BroadcastSystem Ev :=
  match checkSendEvidenceMessage ops s.peerState s.pool ev with
  | (none, retry) => if retry then s else { s with next := adv }
  | (some evis, _) =>
    match encodeMsg ops evis with
    | .error _ => { s with pc := .panicked }
    | .ok msgBytes =>
      let s := { s with sent := s.sent ++ [⟨evis, msgBytes, ev, s.peerState, s.pool⟩] }
      if success then { s with next := adv } else s

def BroadcastSystem.running (s : BroadcastSystem Ev) : Bool := s.peerRunning && s.reactorRunning

/-- From `Reactor.broadcastEvidenceRoutine`, lines 183-228, and the goroutines around it. -/
inductive BroadcastStep : BroadcastSystem Ev → BroadcastSystem Ev → Prop where
  | exit (s : BroadcastSystem Ev) (hpc : s.pc = .loop) (h : s.running = false) :
      BroadcastStep s { s with pc := .exited }
  | front (s : BroadcastSystem Ev) (hpc : s.pc = .loop) (h : s.running = true)
      (hn : s.next = none) : BroadcastStep s { s with next := s.pending.head? }
  | iterate (s : BroadcastSystem Ev) (ev : Ev) (success : Bool) (adv : Option Ev)
      (hpc : s.pc = .loop) (h : s.running = true) (hn : s.next = some ev) :
      BroadcastStep s (s.iterate ops ev success adv)
  | pending (s : BroadcastSystem Ev) (l : List Ev) : BroadcastStep s { s with pending := l }
  | peerState (s : BroadcastSystem Ev) (o : Option (BitVec 64)) :
      BroadcastStep s { s with peerState := o }
  | pool (s : BroadcastSystem Ev) (st : PoolState) : BroadcastStep s { s with pool := st }
  | running (s : BroadcastSystem Ev) (a b : Bool) :
      BroadcastStep s { s with peerRunning := a, reactorRunning := b }

inductive BroadcastReachable : BroadcastSystem Ev → Prop where
  | init (pending : List Ev) (peerState : Option (BitVec 64)) (pool : PoolState) (a b : Bool) :
      BroadcastReachable ⟨pending, peerState, pool, a, b, none, .loop, []⟩
  | step {s s' : BroadcastSystem Ev} : BroadcastReachable s → BroadcastStep ops s s' →
      BroadcastReachable s'

def SentChecked (s : BroadcastSystem Ev) : Prop :=
  ∀ x ∈ s.sent, (∃ r, checkSendEvidenceMessage ops x.peerState x.pool x.ev = (some x.evis, r)) ∧
    encodeMsg ops x.evis = .ok x.msgBytes

theorem iterate_sentChecked {s : BroadcastSystem Ev} (hs : SentChecked ops s) (ev : Ev)
    (success : Bool) (adv : Option Ev) : SentChecked ops (s.iterate ops ev success adv) := by
  unfold BroadcastSystem.iterate
  split
  · split <;> exact hs
  · rename_i evis r hc
    split
    · exact hs
    · rename_i msgBytes he
      intro x hx
      split at hx <;>
        simp only [List.mem_append, List.mem_singleton] at hx <;>
        rcases hx with hx | rfl
      all_goals first | exact hs x hx | exact ⟨⟨r, hc⟩, he⟩

theorem sentChecked_step {s s' : BroadcastSystem Ev} (hs : SentChecked ops s)
    (h : BroadcastStep ops s s') : SentChecked ops s' := by
  cases h with
  | iterate ev success adv => exact iterate_sentChecked ops hs ev success adv
  | _ => exact hs

theorem sentChecked_of_reachable {s : BroadcastSystem Ev} (h : BroadcastReachable ops s) :
    SentChecked ops s := by
  induction h with
  | init => intro x hx; simp at hx
  | step _ hst ih => exact sentChecked_step ops ih hst

theorem sent_evidence_within_bounds {s : BroadcastSystem Ev} (hs : BroadcastReachable ops s)
    {x : SentEvidence Ev} (hx : x ∈ s.sent) :
    ∃ p, x.peerState = some p ∧ x.evis = [x.ev] ∧ (ops.height x.ev).toNat ≤ p.toNat ∧
      (p.toNat - (ops.height x.ev).toNat < 2 ^ 63 →
        -9223372036854 ≤ x.pool.params.maxAgeDuration.toInt →
        x.pool.params.maxAgeDuration.toInt ≤ 9223372036854 →
        (p.toNat - (ops.height x.ev).toNat : Int) ≤ x.pool.params.maxAgeNumBlocks.toInt ∧
          x.pool.lastBlockTime - ops.time x.ev ≤ x.pool.params.maxAgeDuration.toInt * 1000000) := by
  obtain ⟨⟨r, hc⟩, -⟩ := sentChecked_of_reachable ops hs x hx
  obtain ⟨p, hp, hev, -, hle⟩ := checkSendEvidenceMessage_eq_some ops hc
  refine ⟨p, hp, hev, hle, fun hage hlo hhi => ?_⟩
  rw [checkSendEvidenceMessage_refines ops _ _ _ (by simpa [hp] using hage) hlo hhi, hp] at hc
  exact specCheckSend_eq_some hc

theorem sent_frame_received (hrt : RoundTrips ops) {s : BroadcastSystem Ev}
    (hs : BroadcastReachable ops s) {x : SentEvidence Ev} (hx : x ∈ s.sent)
    (hv : ops.validateBasic x.ev = none) (outcome : Nat → AddResult Err) :
    receive ops x.msgBytes outcome =
      .addEvidence x.ev ::
        match outcome 0 with
        | .evidenceInvalid err => [.stopPeerForError (.evidenceInvalid err)]
        | _ => [] := by
  obtain ⟨⟨r, hc⟩, he⟩ := sentChecked_of_reachable ops hs x hx
  obtain ⟨p, -, hev, -⟩ := checkSendEvidenceMessage_eq_some ops hc
  rw [hev] at he
  have hd := decodeMsg_encodeMsg ops hrt he (by simpa using hv)
  cases h0 : outcome 0 <;> simp [receive, hd, addEvidenceFrom, h0]

theorem iterate_pc {s : BroadcastSystem Ev} {ev : Ev}
    (henc : ∃ bz, encodeMsg ops [ev] = .ok bz) (success : Bool) (adv : Option Ev) :
    (s.iterate ops ev success adv).pc = s.pc := by
  unfold BroadcastSystem.iterate
  split
  · split <;> rfl
  · rename_i evis r hc
    obtain ⟨-, -, rfl, -⟩ := checkSendEvidenceMessage_eq_some ops hc
    obtain ⟨bz, hbz⟩ := henc
    simp only [hbz]
    cases success <;> rfl

theorem broadcast_never_panics (henc : ∀ ev, ∃ bz, encodeMsg ops [ev] = .ok bz)
    {s : BroadcastSystem Ev} (hs : BroadcastReachable ops s) : s.pc ≠ .panicked := by
  induction hs with
  | init => simp
  | step _ hst ih =>
    cases hst with
    | exit => simp
    | iterate ev success adv => rwa [iterate_pc ops (henc ev)]
    | _ => exact ih

def byteOps : EvidenceOps UInt8 UInt8 Unit where
  height b := BitVec.ofNat 64 b.toNat
  time _ := 0
  validateBasic _ := none
  toProto := .ok
  fromProto := .ok
  marshal := .ok
  unmarshal := .ok

theorem byteOps_roundTrips : RoundTrips byteOps :=
  ⟨fun _ _ h => by cases h; rfl, fun _ _ h => by cases h; rfl⟩

def sampleAfterSend : BroadcastSystem UInt8 :=
  BroadcastSystem.iterate byteOps
    ⟨[5], some 10#64, samplePool, true, true, some 5, .loop, []⟩ 5 true none

theorem sampleAfterSend_reachable : BroadcastReachable byteOps sampleAfterSend :=
  .step (.step (.init [5] (some 10#64) samplePool true true) (.front _ rfl rfl rfl))
    (.iterate _ 5 true none rfl rfl rfl)

theorem sampleAfterSend_sent : sampleAfterSend.sent = [⟨[5], [5], 5, some 10#64, samplePool⟩] :=
  rfl

theorem sample_evidence_sent_within_bounds :
    let x : SentEvidence UInt8 := ⟨[5], [5], 5, some 10#64, samplePool⟩
    BroadcastReachable byteOps sampleAfterSend ∧ x ∈ sampleAfterSend.sent ∧
      ∃ p, x.peerState = some p ∧ x.evis = [x.ev] ∧ (byteOps.height x.ev).toNat ≤ p.toNat ∧
        (p.toNat - (byteOps.height x.ev).toNat < 2 ^ 63 →
          -9223372036854 ≤ x.pool.params.maxAgeDuration.toInt →
          x.pool.params.maxAgeDuration.toInt ≤ 9223372036854 →
          (p.toNat - (byteOps.height x.ev).toNat : Int) ≤ x.pool.params.maxAgeNumBlocks.toInt ∧
            x.pool.lastBlockTime - byteOps.time x.ev ≤
              x.pool.params.maxAgeDuration.toInt * 1000000) :=
  have hx := sampleAfterSend_sent ▸ List.mem_singleton_self _
  ⟨sampleAfterSend_reachable, hx, sent_evidence_within_bounds byteOps sampleAfterSend_reachable hx⟩

theorem sample_frame_received :
    let x : SentEvidence UInt8 := ⟨[5], [5], 5, some 10#64, samplePool⟩
    RoundTrips byteOps ∧ BroadcastReachable byteOps sampleAfterSend ∧ x ∈ sampleAfterSend.sent ∧
      byteOps.validateBasic x.ev = none ∧
      receive byteOps x.msgBytes (fun _ => .evidenceInvalid ()) =
        [.addEvidence 5, .stopPeerForError (.evidenceInvalid ())] :=
  have hx := sampleAfterSend_sent ▸ List.mem_singleton_self _
  ⟨byteOps_roundTrips, sampleAfterSend_reachable, hx, rfl,
    sent_frame_received byteOps byteOps_roundTrips sampleAfterSend_reachable hx rfl _⟩

theorem sample_routine_never_panics :
    (∀ ev, ∃ bz, encodeMsg byteOps [ev] = .ok bz) ∧ BroadcastReachable byteOps sampleAfterSend ∧
      sampleAfterSend.pc ≠ .panicked :=
  have henc : ∀ ev, ∃ bz, encodeMsg byteOps [ev] = .ok bz := fun ev => ⟨[ev], rfl⟩
  ⟨henc, sampleAfterSend_reachable, broadcast_never_panics byteOps henc sampleAfterSend_reachable⟩

end Evidence
end Kardia
