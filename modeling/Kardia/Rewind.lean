import Kardia.HeaderChainRuns

namespace Kardia

namespace Store

def PredAt (db : Store) (H : Header) : Prop :=
  0 < H.height → ∀ m H', db.header H.lastCommitHash m = some H' → m + 1 = H.height

def PredOk (db : Store) : Prop := ∀ x n H, db.header x n = some H → db.PredAt H

/-- The walk the spec gives `set_head`, from the header stored under `(k, x)`: the headers
above `head` down the `LastCommitHash` links, newest first, and where it stops: the header
at height `head`, or `none` at the first predecessor missing. -/
def ancestors (db : Store) (head : Nat) : Nat → Hash → List Header × Option Header
  | 0, x => ([], db.header x 0)
  | k + 1, x =>
    match db.header x (k + 1) with
    | none => ([], none)
    | some H =>
      if k + 1 ≤ head then ([], some H)
      else let r := db.ancestors head k H.lastCommitHash; (H :: r.1, r.2)

/-- The same walk from the current header `C`, which need not be stored. -/
def specRewind (db : Store) (head : Nat) (C : Header) : List Header × Option Header :=
  if C.height ≤ head then ([], some C)
  else let r := db.ancestors head (C.height - 1) C.lastCommitHash; (C :: r.1, r.2)

theorem ancestors_of_stop {db : Store} {head k : Nat} {x : Hash}
    (h : ∀ H, db.header x k = some H → k ≤ head) :
    db.ancestors head k x = ([], db.header x k) := by
  cases k with
  | zero => rfl
  | succ k =>
    cases hH : db.header x (k + 1) with
    | none => simp [ancestors, hH]
    | some H => simp [ancestors, hH, h H hH]

theorem ancestors_of_lt {db : Store} {head k : Nat} {x : Hash} {H : Header}
    (hH : db.header x (k + 1) = some H) (hlt : head < k + 1) :
    db.ancestors head (k + 1) x =
      (H :: (db.ancestors head k H.lastCommitHash).1,
        (db.ancestors head k H.lastCommitHash).2) := by
  simp [ancestors, hH, Nat.not_le.2 hlt]

theorem ofHeaders_predOk {hs canon : List Header} (b : Hash)
    (h : ∀ H ∈ hs, 0 < H.height → ∀ H' ∈ hs, H'.hash = H.lastCommitHash →
      H'.height + 1 = H.height) :
    (ofHeaders hs canon b).PredOk := by
  intro x n H hH hpos m H' hH'
  have hm : H'.hash = H.lastCommitHash ∧ H'.height = m := by simpa using List.find?_some hH'
  rw [← hm.2]
  exact h H (List.mem_of_find?_eq_some hH) hpos H' (List.mem_of_find?_eq_some hH') hm.1

end Store

def Descends (l : List Header) : Prop :=
  l.Chain' fun a b => b.height + 1 = a.height ∧ b.hash = a.lastCommitHash

section Walk

variable {db : Store} (head : Nat)

theorem ancestors_spec (hok : db.Ok) (k : Nat) (x : Hash) :
    (∀ H ∈ (db.ancestors head k x).1.head?, H.height = k ∧ H.hash = x) ∧
      Descends (db.ancestors head k x).1 ∧
      (∀ H ∈ (db.ancestors head k x).1, head < H.height) ∧
      ∀ E, (db.ancestors head k x).2 = some E → E.height = min head k := by
  induction k generalizing x with
  | zero =>
    rw [Store.ancestors_of_stop fun _ _ => Nat.zero_le head]
    refine ⟨by simp, List.chain'_nil, by simp, fun E hE => ?_⟩
    rw [(hok.header _ _ _ hE).1]
    omega
  | succ k ih =>
    by_cases hs : ∀ H, db.header x (k + 1) = some H → k + 1 ≤ head
    · rw [Store.ancestors_of_stop hs]
      refine ⟨by simp, List.chain'_nil, by simp, fun E hE => ?_⟩
      have := hs E hE
      rw [(hok.header _ _ _ hE).1]
      omega
    · push_neg at hs
      obtain ⟨H, hH, hlt⟩ := hs
      obtain ⟨hk, hx⟩ := hok.header _ _ _ hH
      obtain ⟨ih1, ih2, ih3, ih4⟩ := ih H.lastCommitHash
      rw [Store.ancestors_of_lt hH hlt]
      refine ⟨by simp [hk, hx], List.chain'_cons'.2 ⟨fun y hy => ?_, ih2⟩,
        List.forall_mem_cons.2 ⟨by omega, ih3⟩, fun E hE => ?_⟩
      · exact ⟨by rw [(ih1 y hy).1, hk], (ih1 y hy).2⟩
      · rw [ih4 E hE]
        omega

theorem specRewind_spec (hok : db.Ok) (C : Header) :
    Descends (db.specRewind head C).1 ∧ (∀ H ∈ (db.specRewind head C).1, head < H.height) ∧
      ∀ E, (db.specRewind head C).2 = some E → E.height = min head C.height := by
  unfold Store.specRewind
  split_ifs with hle
  · exact ⟨List.chain'_nil, by simp, fun E hE => by cases hE; omega⟩
  · obtain ⟨ih1, ih2, ih3, ih4⟩ := ancestors_spec head hok (C.height - 1) C.lastCommitHash
    refine ⟨List.chain'_cons'.2 ⟨fun y hy => ⟨by rw [(ih1 y hy).1]; omega, (ih1 y hy).2⟩,
      ih2⟩,
      List.forall_mem_cons.2 ⟨by omega, ih3⟩, fun E hE => ?_⟩
    rw [ih4 E hE]
    omega

end Walk

theorem mem_canonicalOps {height head n : Nat} :
    BatchOp.deleteCanonicalHash n ∈ HeaderChain.canonicalOps height head ↔
      head < n ∧ n ≤ height := by
  simp only [HeaderChain.canonicalOps, List.mem_map, List.mem_range,
    BatchOp.deleteCanonicalHash.injEq]
  constructor
  · rintro ⟨i, hi, rfl⟩
    omega
  · rintro ⟨h1, h2⟩
    exact ⟨height - n, by omega, by omega⟩

theorem not_mem_deleteOps (delFn : Option DeleteCallback) (l : List Header) (n : Nat) :
    BatchOp.deleteCanonicalHash n ∉ l.flatMap (HeaderChain.deleteOps delFn) := by
  simp [HeaderChain.deleteOps]

theorem mem_deleteOps {delFn : Option DeleteCallback} {H : Header} {x : Hash} {n : Nat} :
    BatchOp.deleteHeader x n ∈ HeaderChain.deleteOps delFn H ↔ H.hash = x ∧ H.height = n := by
  cases delFn <;> simp [HeaderChain.deleteOps, eq_comm]

theorem deleteHeader_not_mem_canonicalOps (height head : Nat) (x : Hash) (n : Nat) :
    BatchOp.deleteHeader x n ∉ HeaderChain.canonicalOps height head := by
  simp [HeaderChain.canonicalOps]

namespace HeaderChain

section Loop

variable {head : Nat} {delFn : Option DeleteCallback} {hc : HeaderChain} {H : Header}

theorem rewind_of_stop (h : ∀ H, hc.currentHeader = some H → H.height ≤ head) (f : Nat)
    (batch : List BatchOp) : rewind head delFn (f + 1) hc batch = some (hc, batch) := by
  cases hcur : hc.currentHeader with
  | none => simp [rewind, hcur]
  | some H => simp [rewind, hcur, Nat.not_lt.2 (h H hcur)]

theorem rewind_of_lt (h : hc.currentHeader = some H) (hlt : head < H.height) (f : Nat)
    (batch : List BatchOp) :
    rewind head delFn (f + 1) hc batch =
      rewind head delFn f
        { hc with toCachedStore := (hc.getHeader H.lastCommitHash (H.height - 1)).2
                  currentHeader := (hc.getHeader H.lastCommitHash (H.height - 1)).1 }
        (batch ++ deleteOps delFn H) := by
  simp [rewind, h, hlt]

theorem rewind_succ {f : Nat} {batch : List BatchOp} {r : HeaderChain × List BatchOp}
    (h : rewind head delFn f hc batch = some r) : rewind head delFn (f + 1) hc batch = some r := by
  induction f generalizing hc batch with
  | zero => cases h
  | succ f ih =>
    by_cases hs : ∀ H, hc.currentHeader = some H → H.height ≤ head
    · rwa [rewind_of_stop hs] at h ⊢
    · push_neg at hs
      obtain ⟨H, hcur, hlt⟩ := hs
      rw [rewind_of_lt hcur hlt] at h ⊢
      exact ih h

theorem rewind_mono {f f' : Nat} (hf : f ≤ f') {batch : List BatchOp}
    {r : HeaderChain × List BatchOp} (h : rewind head delFn f hc batch = some r) :
    rewind head delFn f' hc batch = some r := by
  induction f', hf using Nat.le_induction with
  | base => exact h
  | succ f' _ ih => exact rewind_succ ih

theorem rewind_unique {f f' : Nat} {batch : List BatchOp} {r r' : HeaderChain × List BatchOp}
    (h : rewind head delFn f hc batch = some r) (h' : rewind head delFn f' hc batch = some r') :
    r = r' := by
  have := rewind_mono (le_max_left f f') h
  rw [rewind_mono (le_max_right f f') h'] at this
  exact (Option.some.inj this).symm

theorem rewind_step (hcoh : hc.Coherent) (hok : hc.chainDb.Ok) (h : hc.currentHeader = some H)
    (hlt : head < H.height) (hp : hc.chainDb.PredAt H) :
    ∃ hc₁ : HeaderChain, hc₁.chainDb = hc.chainDb ∧ hc₁.Coherent ∧
      hc₁.currentHeader = hc.chainDb.header H.lastCommitHash (H.height - 1) ∧
      ∀ delFn f batch, rewind head delFn (f + 1) hc batch =
        rewind head delFn f hc₁ (batch ++ deleteOps delFn H) :=
  ⟨_, CachedStore.getHeader_chainDb, CachedStore.getHeader_coherent hcoh hok,
    CachedStore.getHeader_fst hcoh fun m H' hm => by have := hp (by omega) m H' hm; omega,
    fun _ => rewind_of_lt h hlt⟩

theorem rewind_exit {fuel : Nat} {batch : List BatchOp} {r : HeaderChain × List BatchOp}
    (h : rewind head delFn fuel hc batch = some r) :
    (∃ hs : List Header, (∀ H ∈ hs, head < H.height) ∧
      r.2 = batch ++ hs.flatMap (deleteOps delFn)) ∧
    ∀ H, r.1.currentHeader = some H → H.height ≤ head := by
  induction fuel generalizing hc batch with
  | zero => cases h
  | succ fuel ih =>
    by_cases hs : ∀ H, hc.currentHeader = some H → H.height ≤ head
    · rw [rewind_of_stop hs] at h
      cases h
      exact ⟨⟨[], by simp, by simp⟩, hs⟩
    · push_neg at hs
      obtain ⟨H, hcur, hlt⟩ := hs
      rw [rewind_of_lt hcur hlt] at h
      obtain ⟨⟨hs, hhs, hr⟩, hstop⟩ := ih h
      refine ⟨⟨H :: hs, ?_, by simp [hr]⟩, hstop⟩
      simpa [hlt] using hhs

end Loop

section Walk

variable (head : Nat) (delFn : Option DeleteCallback)

theorem rewind_ancestors_of_stop {db : Store} (hok : db.Ok) {hc : HeaderChain} {k : Nat}
    {x : Hash} (hcur : hc.currentHeader = db.header x k)
    (hs : ∀ H, db.header x k = some H → k ≤ head) (batch : List BatchOp) :
    rewind head delFn (k + 1) hc batch =
        some (hc, batch ++ (db.ancestors head k x).1.flatMap (deleteOps delFn)) ∧
      hc.currentHeader = (db.ancestors head k x).2 := by
  rw [Store.ancestors_of_stop hs, rewind_of_stop fun H hH => ?_]
  · simp [hcur]
  · rw [hcur] at hH
    rw [(hok.header _ _ _ hH).1]
    exact hs H hH

theorem rewind_ancestors {db : Store} (hok : db.Ok) (hpred : db.PredOk) (k : Nat) :
    ∀ (hc : HeaderChain) (x : Hash) (batch : List BatchOp), hc.chainDb = db → hc.Coherent →
      hc.currentHeader = db.header x k →
      ∃ hc', rewind head delFn (k + 1) hc batch =
          some (hc', batch ++ (db.ancestors head k x).1.flatMap (deleteOps delFn)) ∧
        hc'.currentHeader = (db.ancestors head k x).2 := by
  induction k with
  | zero =>
    exact fun hc x batch _ _ hcur =>
      ⟨hc, rewind_ancestors_of_stop head delFn hok hcur (fun _ _ => Nat.zero_le head) batch⟩
  | succ k ih =>
    intro hc x batch hdb hcoh hcur
    by_cases hs : ∀ H, db.header x (k + 1) = some H → k + 1 ≤ head
    · exact ⟨hc, rewind_ancestors_of_stop head delFn hok hcur hs batch⟩
    · push_neg at hs
      obtain ⟨H, hH, hlt⟩ := hs
      obtain ⟨hk, -⟩ := hok.header _ _ _ hH
      subst hdb
      obtain ⟨hc₁, hdb₁, hcoh₁, hcur₁, hstep⟩ :=
        rewind_step hcoh hok (hcur.trans hH) (show head < H.height by omega) (hpred x _ H hH)
      obtain ⟨hc', hr, hcur'⟩ := ih hc₁ H.lastCommitHash (batch ++ deleteOps delFn H) hdb₁
        hcoh₁ (by rw [hcur₁, hk, Nat.add_sub_cancel])
      rw [Store.ancestors_of_lt hH hlt]
      exact ⟨hc', by rw [hstep delFn, hr]; simp, hcur'⟩

theorem rewind_specRewind {hc : HeaderChain} {C : Header} (hok : hc.chainDb.Ok)
    (hpred : hc.chainDb.PredOk) (hcoh : hc.Coherent) (hC : hc.currentHeader = some C)
    (hCp : hc.chainDb.PredAt C) :
    ∃ hc', rewind head delFn (C.height + 1) hc [] =
        some (hc', (hc.chainDb.specRewind head C).1.flatMap (deleteOps delFn)) ∧
      hc'.currentHeader = (hc.chainDb.specRewind head C).2 := by
  by_cases hle : C.height ≤ head
  · refine ⟨hc, ?_, by simp [Store.specRewind, hle, hC]⟩
    rw [rewind_of_stop fun H h => by cases hC.symm.trans h; exact hle]
    simp [Store.specRewind, hle]
  · obtain ⟨hc₁, hdb₁, hcoh₁, hcur₁, hstep⟩ :=
      rewind_step hcoh hok hC (show head < C.height by omega) hCp
    obtain ⟨hc', hr, hcur'⟩ := rewind_ancestors head delFn hok hpred (C.height - 1) hc₁
      C.lastCommitHash ([] ++ deleteOps delFn C) hdb₁ hcoh₁ hcur₁
    rw [Nat.sub_add_cancel (by omega)] at hr
    refine ⟨hc', ?_, by simpa [Store.specRewind, hle] using hcur'⟩
    rw [hstep delFn, hr]
    simp [Store.specRewind, hle]

end Walk

end HeaderChain

open HeaderChain

theorem setHead_walks_ancestors {db : Store} {hc₀ hc : HeaderChain} {ops : List ChainOp}
    {C : Header} (hdb : db.Ok) (h0 : newHeaderChain db = .ok hc₀) (hr : ChainRun hc₀ ops hc)
    (hpred : hc.chainDb.PredOk) (hC : hc.currentHeader = some C) (hCp : hc.chainDb.PredAt C)
    (head : Nat) (delFn : Option DeleteCallback) :
    (∃ fuel r, hc.setHead fuel head delFn = some r) ∧
    ∀ fuel r, hc.setHead fuel head delFn = some r →
      let w := hc.chainDb.specRewind head C
      let E := w.2.getD hc.genesisHeader
      r.2 = w.1.flatMap (deleteOps delFn) ++ canonicalOps C.height head ∧
      Descends w.1 ∧ (∀ H ∈ w.1, head < H.height) ∧
      (∀ E', w.2 = some E' → E'.height = min head C.height) ∧
      (∀ n, BatchOp.deleteCanonicalHash n ∈ r.2 ↔ head < n ∧ n ≤ C.height) ∧
      r.1.chainDb = { hc.chainDb.write r.2 with headHeaderHash := E.hash } ∧
      (∀ n, r.1.chainDb.canonicalHash n =
        if head < n ∧ n ≤ C.height then 0 else hc.chainDb.canonicalHash n) ∧
      (∀ x n, r.1.chainDb.header x n =
        if ∃ H ∈ w.1, H.hash = x ∧ H.height = n then none else hc.chainDb.header x n) ∧
      (∀ x, r.1.chainDb.headerHeight x =
        if ∃ H ∈ w.1, H.hash = x then none else hc.chainDb.headerHeight x) ∧
      r.1.currentHeader = some E ∧ r.1.currentHeaderHash = E.hash ∧
      r.1.chainDb.headHeaderHash = E.hash ∧
      r.1.headerCache.entries = [] ∧ r.1.heightCache.entries = [] := by
  obtain ⟨hok, hcoh⟩ := storeInv_run hr (newHeaderChain_storeInv hdb h0)
  obtain ⟨hc', hrw, hcur'⟩ := rewind_specRewind head delFn hok hpred hcoh hC hCp
  refine ⟨⟨C.height + 1, _, by rw [setHead, hrw]; rfl⟩, fun fuel r h => ?_⟩
  obtain ⟨hc'', batch, hrw', hbatch, hdb', hhc, hyc, -, hcur, hhash⟩ := setHead_eq h
  obtain ⟨rfl, rfl⟩ := Prod.mk.inj (rewind_unique hrw' hrw)
  have hgen' : hc''.genesisHeader = hc.genesisHeader := (rewind_chainDb hrw').2
  obtain ⟨hd1, hd2, hd3⟩ := specRewind_spec head hok C
  simp only [hC] at hbatch
  have hcanon : ∀ n, BatchOp.deleteCanonicalHash n ∈ r.2 ↔ head < n ∧ n ≤ C.height := fun n => by
    simp only [hbatch, List.mem_append, mem_canonicalOps, not_mem_deleteOps, false_or]
  have hhdr : ∀ x n, BatchOp.deleteHeader x n ∈ r.2 ↔
      ∃ H ∈ (hc.chainDb.specRewind head C).1, H.hash = x ∧ H.height = n := fun x n => by
    simp only [hbatch, List.mem_append, List.mem_flatMap, mem_deleteOps,
      deleteHeader_not_mem_canonicalOps, or_false]
  have hstore : r.1.chainDb = { hc.chainDb.write r.2 with
      headHeaderHash := ((hc.chainDb.specRewind head C).2.getD hc.genesisHeader).hash } := by
    rw [hdb', (rewind_chainDb hrw').1, hcur', hgen']
  refine ⟨hbatch, hd1, hd2, hd3, hcanon, hstore, fun n => ?_, fun x n => ?_, fun x => ?_, ?_, ?_,
    by rw [hstore], by rw [hhc]; rfl, by rw [hyc]; rfl⟩
  · rw [hstore]
    exact (Store.write_canonicalHash _ _ n).trans (if_congr (hcanon n) rfl rfl)
  · rw [hstore]
    exact (Store.write_header _ _ x n).trans (if_congr (hhdr x n) rfl rfl)
  · rw [hstore, Store.write_headerHeight]
    congr 1
    refine propext ⟨fun ⟨n, hn⟩ => ?_, fun ⟨H, hH, hx⟩ => ⟨H.height, (hhdr x _).2 ⟨H, hH, hx, rfl⟩⟩⟩
    obtain ⟨H, hH, hx, -⟩ := (hhdr x n).1 hn
    exact ⟨H, hH, hx⟩
  · rw [hcur, hcur', hgen']
  · rw [hhash, hcur', hgen']

theorem setHead_walks_sample_ancestors :
    ∃ hc₀, newHeaderChain sampleDb = .ok hc₀ ∧
    (∃ fuel r, hc₀.setHead fuel 0 (some ⟨⟩) = some r) ∧
    ∀ fuel r, hc₀.setHead fuel 0 (some ⟨⟩) = some r →
      let w := hc₀.chainDb.specRewind 0 ⟨2, 2, 3⟩
      let E := w.2.getD hc₀.genesisHeader
      r.2 = w.1.flatMap (deleteOps (some ⟨⟩)) ++ canonicalOps 2 0 ∧
      Descends w.1 ∧ (∀ H ∈ w.1, 0 < H.height) ∧
      (∀ E', w.2 = some E' → E'.height = min 0 2) ∧
      (∀ n, BatchOp.deleteCanonicalHash n ∈ r.2 ↔ 0 < n ∧ n ≤ 2) ∧
      r.1.chainDb = { hc₀.chainDb.write r.2 with headHeaderHash := E.hash } ∧
      (∀ n, r.1.chainDb.canonicalHash n =
        if 0 < n ∧ n ≤ 2 then 0 else hc₀.chainDb.canonicalHash n) ∧
      (∀ x n, r.1.chainDb.header x n =
        if ∃ H ∈ w.1, H.hash = x ∧ H.height = n then none else hc₀.chainDb.header x n) ∧
      (∀ x, r.1.chainDb.headerHeight x =
        if ∃ H ∈ w.1, H.hash = x then none else hc₀.chainDb.headerHeight x) ∧
      r.1.currentHeader = some E ∧ r.1.currentHeaderHash = E.hash ∧
      r.1.chainDb.headHeaderHash = E.hash ∧
      r.1.headerCache.entries = [] ∧ r.1.heightCache.entries = [] :=
  have h0 : newHeaderChain sampleDb = .ok _ := rfl
  have hpred : sampleDb.PredOk := Store.ofHeaders_predOk 3 (by decide)
  ⟨_, h0, setHead_walks_ancestors sampleDb_ok h0 (.nil _) hpred rfl (hpred 3 2 _ rfl) 0
    (some ⟨⟩)⟩

def forkHeaders : List Header := [⟨0, 0, 1⟩, ⟨1, 1, 2⟩, ⟨2, 2, 3⟩, ⟨3, 3, 4⟩]

def forkDb : Store := Store.ofHeaders forkHeaders forkHeaders 0

theorem setHead_deletes_off_chain :
    ∃ hc₀ hc, forkDb.Ok ∧ forkDb.PredOk ∧ newHeaderChain forkDb = .ok hc₀ ∧
      ChainRun hc₀ [.getHeaderByHash 4, .setCurrentHeader ⟨2, 4, 5⟩] hc ∧
      hc.currentHeader = some ⟨2, 4, 5⟩ ∧
      forkDb.specRewind 0 ⟨2, 4, 5⟩ = ([⟨2, 4, 5⟩], none) ∧
      (hc.setHead 5 0 none).map Prod.snd = some [.deleteHeader 5 2, .deleteHeader 4 3,
        .deleteHeader 3 2, .deleteHeader 2 1, .deleteCanonicalHash 2, .deleteCanonicalHash 1] :=
  have h0 : newHeaderChain forkDb = .ok _ := rfl
  have hr :=
    ChainRun.cons (.getHeaderByHash _ 4) (.cons (.setCurrentHeader _ ⟨2, 4, 5⟩) (.nil _))
  ⟨_, _, Store.ofHeaders_ok 0 (by decide) fun _ h => h, Store.ofHeaders_predOk 0 (by decide), h0,
    hr, rfl, by decide, by decide⟩

section SetHead

variable {fuel head : Nat} {delFn : Option DeleteCallback} {hc : HeaderChain}
  {r : HeaderChain × List BatchOp}

theorem setHead_clears_heights_above (h : hc.setHead fuel head delFn = some r) {C : Header}
    (hC : hc.currentHeader = some C) {n : Nat} (hlo : head < n) (hhi : n ≤ C.height) :
    (r.1.getHeaderByHeight n).1 = none := by
  obtain ⟨hc', batch, -, hb, hdb, -⟩ := setHead_eq h
  have hm : BatchOp.deleteCanonicalHash n ∈ r.2 := by
    rw [hb, hC, List.mem_append, mem_canonicalOps]
    exact Or.inr ⟨hlo, hhi⟩
  simp [CachedStore.getHeaderByHeight, hdb, Store.write_canonicalHash, hm]

theorem setHead_clears_sample_heights :
    ∃ hc r, newHeaderChain sampleDb = .ok hc ∧ hc.setHead 3 0 none = some r ∧
      hc.currentHeader = some ⟨2, 2, 3⟩ ∧ 0 < 2 ∧ 2 ≤ 2 ∧ (r.1.getHeaderByHeight 2).1 = none :=
  let hc₀ : { hc // newHeaderChain sampleDb = .ok hc } := ⟨_, rfl⟩
  ⟨hc₀.1, _, hc₀.2, rfl, rfl, by decide, le_refl 2,
    @setHead_clears_heights_above 3 0 none hc₀.1 _ rfl _ rfl 2 (by decide) (le_refl 2)⟩

theorem setHead_forgets_deleted_hashes (h : hc.setHead fuel head delFn = some r) {x : Hash}
    {n : Nat} (hx : .deleteHeader x n ∈ r.2) : (r.1.getHeaderByHash x).1 = none := by
  obtain ⟨hc', batch, -, -, hdb, -, hyc, -⟩ := setHead_eq h
  refine CachedStore.getHeaderByHash_of_empty (by rw [hyc]; rfl) ?_
  rw [hdb]
  exact (Store.write_headerHeight _ _ x).trans (if_pos ⟨n, hx⟩)

theorem setHead_forgets_sample_tip :
    ∃ hc r, newHeaderChain sampleDb = .ok hc ∧ hc.setHead 3 0 none = some r ∧
      BatchOp.deleteHeader 3 2 ∈ r.2 ∧ (r.1.getHeaderByHash 3).1 = none :=
  let hc₀ : { hc // newHeaderChain sampleDb = .ok hc } := ⟨_, rfl⟩
  ⟨hc₀.1, _, hc₀.2, rfl, by decide,
    @setHead_forgets_deleted_hashes 3 0 none hc₀.1 _ rfl 3 2 (by decide)⟩

theorem setHead_idempotent (h : hc.setHead fuel head delFn = some r)
    (hg : hc.genesisHeader.height ≤ head) (fuel' : Nat) (delFn' : Option DeleteCallback) :
    r.1.setHead (fuel' + 1) head delFn' = some (r.1, []) := by
  obtain ⟨hc', batch, hrw, -, hdb, hhc, hyc, -, hcur, hhash⟩ := setHead_eq h
  have hE : (hc'.currentHeader.getD hc'.genesisHeader).height ≤ head := by
    have hgen : hc'.genesisHeader = hc.genesisHeader := (rewind_chainDb hrw).2
    cases hc'cur : hc'.currentHeader with
    | none => simpa [hgen] using hg
    | some H => exact (rewind_exit hrw).2 H hc'cur
  obtain ⟨⟨⟨db, hcache, ycache⟩, gen, cur, curHash⟩, rb⟩ := r
  simp only at hdb hhc hyc hcur hhash ⊢
  subst hdb hhc hyc hcur hhash
  rw [setHead, rewind_of_stop (fun H hH => by cases hH; exact hE)]
  simp only [Option.map_some', canonicalOps, Nat.sub_eq_zero_of_le hE, List.range_zero,
    List.map_nil, List.append_nil, Store.write_nil, Option.getD_some]
  rfl

theorem setHead_idempotent_on_sample :
    ∃ hc r, newHeaderChain sampleDb = .ok hc ∧ hc.setHead 3 1 none = some r ∧
      hc.genesisHeader.height ≤ 1 ∧ r.1.setHead 1 1 (some ⟨⟩) = some (r.1, []) :=
  let hc₀ : { hc // newHeaderChain sampleDb = .ok hc } := ⟨_, rfl⟩
  ⟨hc₀.1, _, hc₀.2, rfl, by decide,
    @setHead_idempotent 3 1 none hc₀.1 _ rfl (by decide) 0 (some ⟨⟩)⟩

end SetHead

end Kardia
