import Mathlib

/-!
The evidence reactor of `src/unnamed/part_000`: its wire messages (`encodeMsg`, `decodeMsg`)
and `Receive`. Evidence is opaque; the reactor reaches it through the methods of
`types.Evidence` and the proto conversions, none of which is under `src/`.
-/

namespace Kardia

/-- The methods of `types.Evidence` the reactor calls, `types.EvidenceToProto`,
`types.EvidenceFromProto`, and `Marshal`/`Unmarshal` of the proto `List` message. Go's
`uint64` height is a 64-bit word; `Time()` is in nanoseconds. -/
structure EvidenceOps (Ev Proto Err : Type) where
  height : Ev → BitVec 64
  time : Ev → Int
  validateBasic : Ev → Option Err
  toProto : Ev → Except Err Proto
  fromProto : Proto → Except Err Ev
  marshal : List Proto → Except Err (List UInt8)
  unmarshal : List UInt8 → Except Err (List Proto)

/-- The error `decodeMsg` returns: the errors of `Unmarshal` and `EvidenceFromProto` as they
are, and `fmt.Errorf("invalid evidence (#%d): %v", i, err)` for a failed `ValidateBasic`. -/
inductive DecodeError (Err : Type) where
  | unmarshal (err : Err)
  | fromProto (err : Err)
  | invalidEvidence (i : Nat) (err : Err)
  deriving DecidableEq, Repr

/-- The dynamic type of the error `AddEvidence` returns, as the switch of `Receive` reads it. -/
inductive AddResult (Err : Type) where
  | ok
  | evidenceInvalid (err : Err)
  | other (err : Err)
  deriving DecidableEq, Repr

def AddResult.isEvidenceInvalid {Err : Type} : AddResult Err → Bool
  | .evidenceInvalid _ => true
  | _ => false

inductive StopReason (Err : Type) where
  | decode (err : DecodeError Err)
  | evidenceInvalid (err : Err)
  deriving DecidableEq, Repr

inductive ReceiveCall (Ev Err : Type) where
  | addEvidence (ev : Ev)
  | stopPeerForError (err : StopReason Err)
  deriving DecidableEq, Repr

namespace Evidence

variable {Ev Proto Err : Type} (ops : EvidenceOps Ev Proto Err)

/-- The loops of `encodeMsg` (lines 298-304) and `decodeMsg` (lines 322-328): convert each
element in order and return the first error. -/
def convertAll {α β : Type} (f : α → Except Err β) : List α → Except Err (List β)
  | [] => .ok []
  | a :: as =>
    match f a, convertAll f as with
    | .error err, _ => .error err
    | .ok _, .error err => .error err
    | .ok b, .ok bs => .ok (b :: bs)

/-- From `encodeMsg`, lines 296-311. -/
def encodeMsg (evis : List Ev) : Except Err (List UInt8) :=
  match convertAll ops.toProto evis with
  | .error err => .error err
  | .ok evi => ops.marshal evi

/-- The second loop of `decodeMsg` (lines 330-334), from index `i` on. -/
def validateFrom (i : Nat) : List Ev → Option (DecodeError Err)
  | [] => none
  | ev :: evs =>
    match ops.validateBasic ev with
    | some err => some (.invalidEvidence i err)
    | none => validateFrom (i + 1) evs

/-- From `decodeMsg`, lines 315-337: a nil slice is `none`. -/
def decodeMsg (bz : List UInt8) : Option (List Ev) × Option (DecodeError Err) :=
  match ops.unmarshal bz with
  | .error err => (none, some (.unmarshal err))
  | .ok lm =>
    match convertAll ops.fromProto lm with
    | .error err => (none, some (.fromProto err))
    | .ok evis =>
      match validateFrom ops 0 evis with
      | some err => (none, some err)
      | none => (some evis, none)

/-- The loop of `Receive` (lines 161-174) from the `k`-th `AddEvidence` call on. -/
def addEvidenceFrom (outcome : Nat → AddResult Err) (k : Nat) :
    List Ev → List (ReceiveCall Ev Err)
  | [] => []
  | ev :: evs =>
    .addEvidence ev ::
      match outcome k with
      | .evidenceInvalid err => [.stopPeerForError (.evidenceInvalid err)]
      | _ => addEvidenceFrom outcome (k + 1) evs

/-- From `Reactor.Receive`, lines 154-175; `outcome k` is what the `k`-th `AddEvidence` call
returns. -/
def receive (msgBytes : List UInt8) (outcome : Nat → AddResult Err) :
    List (ReceiveCall Ev Err) :=
  match decodeMsg ops msgBytes with
  | (_, some err) => [.stopPeerForError (.decode err)]
  | (evis, none) => addEvidenceFrom outcome 0 (evis.getD [])

/-- The proto codec undoes itself: `Unmarshal` reads back what `Marshal` wrote, and
`EvidenceFromProto` undoes `EvidenceToProto`. -/
structure RoundTrips : Prop where
  unmarshal_marshal : ∀ l bz, ops.marshal l = .ok bz → ops.unmarshal bz = .ok l
  fromProto_toProto : ∀ ev p, ops.toProto ev = .ok p → ops.fromProto p = .ok ev

def Decodes (bz : List UInt8) (evs : List Ev) : Prop :=
  ∃ lm, ops.unmarshal bz = .ok lm ∧
    List.Forall₂ (fun p ev => ops.fromProto p = .ok ev) lm evs ∧
    ∀ ev ∈ evs, ops.validateBasic ev = none

theorem convertAll_eq_ok_iff {α β : Type} (f : α → Except Err β) {as : List α}
    {bs : List β} :
    convertAll f as = .ok bs ↔ List.Forall₂ (fun a b => f a = .ok b) as bs := by
  induction as generalizing bs with
  | nil => cases bs <;> simp [convertAll]
  | cons a as ih =>
    cases ha : f a <;> cases hs : convertAll f as <;> cases bs <;> simp [convertAll, ha, hs, ← ih]

theorem validateFrom_eq_none_iff (i : Nat) (evs : List Ev) :
    validateFrom ops i evs = none ↔ ∀ ev ∈ evs, ops.validateBasic ev = none := by
  induction evs generalizing i with
  | nil => simp [validateFrom]
  | cons ev evs ih => cases h : ops.validateBasic ev <;> simp [validateFrom, h, ih]

theorem validateFrom_eq_some {i : Nat} {evs : List Ev} {e : DecodeError Err}
    (h : validateFrom ops i evs = some e) :
    ∃ j err, e = .invalidEvidence (i + j) err ∧ (evs[j]?).bind ops.validateBasic = some err ∧
      ∀ k < j, (evs[k]?).bind ops.validateBasic = none := by
  induction evs generalizing i with
  | nil => simp [validateFrom] at h
  | cons ev evs ih =>
    cases hv : ops.validateBasic ev with
    | some err =>
      simp only [validateFrom, hv, Option.some.injEq] at h
      exact ⟨0, err, by simp [h], by simp [hv], by simp⟩
    | none =>
      simp only [validateFrom, hv] at h
      obtain ⟨j, err, rfl, hj, hk⟩ := ih h
      refine ⟨j + 1, err, by rw [Nat.add_right_comm, Nat.add_assoc], by simpa using hj, ?_⟩
      intro k hk'
      cases k with
      | zero => simp [hv]
      | succ k => simpa using hk k (by omega)

theorem decodeMsg_invalidEvidence {bz : List UInt8} {i : Nat} {err : Err}
    (h : (decodeMsg ops bz).2 = some (.invalidEvidence i err)) :
    ∃ lm evs, ops.unmarshal bz = .ok lm ∧
      List.Forall₂ (fun p ev => ops.fromProto p = .ok ev) lm evs ∧
      (evs[i]?).bind ops.validateBasic = some err ∧
      ∀ k < i, (evs[k]?).bind ops.validateBasic = none := by
  unfold decodeMsg at h
  split at h
  · simp at h
  rename_i lm hu
  split at h
  · simp at h
  rename_i evs hc
  split at h
  · rename_i e hv
    obtain ⟨j, err', rfl, hj, hk⟩ := validateFrom_eq_some ops hv
    simp only [Option.some.injEq, DecodeError.invalidEvidence.injEq, Nat.zero_add] at h
    obtain ⟨rfl, rfl⟩ := h
    exact ⟨lm, evs, hu, (convertAll_eq_ok_iff _).1 hc, by simpa using hj, by simpa using hk⟩
  · simp at h

theorem decodeMsg_eq_some_iff (bz : List UInt8) (evs : List Ev) :
    decodeMsg ops bz = (some evs, none) ↔ Decodes ops bz evs := by
  constructor
  · intro h
    unfold decodeMsg at h
    split at h
    · simp at h
    rename_i lm hu
    split at h
    · simp at h
    rename_i evis hc
    split at h
    · simp at h
    rename_i hv
    obtain rfl : evis = evs := by simpa using h
    exact ⟨lm, hu, (convertAll_eq_ok_iff _).1 hc, (validateFrom_eq_none_iff ..).1 hv⟩
  · rintro ⟨lm, hu, hc, hv⟩
    simp [decodeMsg, hu, (convertAll_eq_ok_iff _).2 hc, (validateFrom_eq_none_iff ..).2 hv]

theorem decodeMsg_cases (bz : List UInt8) :
    (∃ err, decodeMsg ops bz = (none, some err)) ∨
      ∃ evs, decodeMsg ops bz = (some evs, none) := by
  unfold decodeMsg
  split
  · simp
  split
  · simp
  split <;> simp

theorem addEvidenceFrom_of_no_invalid (outcome : Nat → AddResult Err) (k : Nat) (evs : List Ev)
    (h : ∀ j < evs.length, (outcome (k + j)).isEvidenceInvalid = false) :
    addEvidenceFrom outcome k evs = evs.map .addEvidence := by
  induction evs generalizing k with
  | nil => rfl
  | cons ev evs ih =>
    have hk : (outcome k).isEvidenceInvalid = false := h 0 (Nat.succ_pos _)
    have hrest := ih (k + 1) fun j hj => by
      rw [Nat.add_right_comm]
      exact h (j + 1) (Nat.succ_lt_succ hj)
    simp only [addEvidenceFrom, List.map_cons]
    split
    · rename_i he
      simp [he, AddResult.isEvidenceInvalid] at hk
    · rw [hrest]

theorem addEvidenceFrom_of_first_invalid (outcome : Nat → AddResult Err) (k j : Nat)
    (evs : List Ev) (hj : j < evs.length) (err : Err)
    (hinv : outcome (k + j) = .evidenceInvalid err)
    (hprev : ∀ i < j, (outcome (k + i)).isEvidenceInvalid = false) :
    addEvidenceFrom outcome k evs =
      (evs.take (j + 1)).map .addEvidence ++ [.stopPeerForError (.evidenceInvalid err)] := by
  induction evs generalizing k j with
  | nil => cases hj
  | cons ev evs ih =>
    cases j with
    | zero => simp [addEvidenceFrom, show outcome k = _ from hinv]
    | succ j =>
      have hk : (outcome k).isEvidenceInvalid = false := hprev 0 (Nat.succ_pos _)
      have hrest := ih (k + 1) j (Nat.lt_of_succ_lt_succ hj)
        (by rw [Nat.add_right_comm]; exact hinv) fun i hi => by
          rw [Nat.add_right_comm]
          exact hprev (i + 1) (Nat.succ_lt_succ hi)
      simp only [addEvidenceFrom, List.take_succ_cons, List.map_cons, List.cons_append]
      split
      · rename_i he
        simp [he, AddResult.isEvidenceInvalid] at hk
      · rw [hrest]

theorem receive_stops_at_first_invalid (msgBytes : List UInt8) (outcome : Nat → AddResult Err) :
    (∃ err, decodeMsg ops msgBytes = (none, some err) ∧ (¬∃ evs, Decodes ops msgBytes evs) ∧
        receive ops msgBytes outcome = [.stopPeerForError (.decode err)]) ∨
      ∃ evs, decodeMsg ops msgBytes = (some evs, none) ∧ Decodes ops msgBytes evs ∧
        ((∀ k < evs.length, (outcome k).isEvidenceInvalid = false) →
          receive ops msgBytes outcome = evs.map .addEvidence) ∧
        ∀ k < evs.length, ∀ err, outcome k = .evidenceInvalid err →
          (∀ j < k, (outcome j).isEvidenceInvalid = false) →
          receive ops msgBytes outcome =
            (evs.take (k + 1)).map .addEvidence ++ [.stopPeerForError (.evidenceInvalid err)] := by
  rcases decodeMsg_cases ops msgBytes with ⟨err, h⟩ | ⟨evs, h⟩
  · refine .inl ⟨err, h, fun ⟨evs, hd⟩ => ?_, by simp [receive, h]⟩
    simp [(decodeMsg_eq_some_iff ..).2 hd] at h
  · refine .inr ⟨evs, h, (decodeMsg_eq_some_iff ..).1 h, fun hv => ?_,
      fun k hk err hinv hprev => ?_⟩
    · simpa [receive, h] using addEvidenceFrom_of_no_invalid outcome 0 evs (by simpa using hv)
    · simpa [receive, h] using
        addEvidenceFrom_of_first_invalid outcome 0 k evs hk err (by simpa using hinv)
          (by simpa using hprev)

theorem encodeMsg_eq_ok {evs : List Ev} {bz : List UInt8} (h : encodeMsg ops evs = .ok bz) :
    ∃ ps, convertAll ops.toProto evs = .ok ps ∧ ops.marshal ps = .ok bz := by
  unfold encodeMsg at h
  split at h
  · cases h
  · exact ⟨_, ‹_›, h⟩

theorem decodeMsg_encodeMsg (hrt : RoundTrips ops) {evs : List Ev} {bz : List UInt8}
    (h : encodeMsg ops evs = .ok bz) (hv : ∀ ev ∈ evs, ops.validateBasic ev = none) :
    decodeMsg ops bz = (some evs, none) := by
  obtain ⟨ps, hc, hm⟩ := encodeMsg_eq_ok ops h
  have hf : List.Forall₂ (fun p ev => ops.fromProto p = .ok ev) ps evs :=
    ((convertAll_eq_ok_iff _).1 hc).flip.imp fun p ev => hrt.fromProto_toProto ev p
  exact (decodeMsg_eq_some_iff ..).2 ⟨ps, hrt.unmarshal_marshal _ _ hm, hf, hv⟩

end Evidence
end Kardia
