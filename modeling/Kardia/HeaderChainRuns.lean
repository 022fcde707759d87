import Kardia.HeaderChain

namespace Kardia

namespace Store

/-- A well-formed store: a header is stored under its own height and hash, a hash has one
height, and the `header_height` and canonical entries agree with the stored headers' heights. -/
structure Ok (db : Store) : Prop where
  header : ∀ x n H, db.header x n = some H → H.height = n ∧ H.hash = x
  unique : ∀ x n m H H', db.header x n = some H → db.header x m = some H' → n = m
  headerHeight : ∀ x n m H, db.headerHeight x = some n → db.header x m = some H → m = n
  canonicalHash : ∀ n m H, db.canonicalHash n ≠ 0 →
    db.header (db.canonicalHash n) m = some H → m = n

structure Sub (db db' : Store) : Prop where
  header : ∀ x n H, db.header x n = some H → db'.header x n = some H
  headerHeight : ∀ x n, db.headerHeight x = some n → db'.headerHeight x = some n
  canonicalHash : ∀ n, db.canonicalHash n ≠ 0 → db'.canonicalHash n = db.canonicalHash n

def Grows (db db' : Store) : Prop :=
  db.Sub db' ∧ db'.headHeaderHash = db.headHeaderHash ∧ db'.headBlockHash = db.headBlockHash ∧
    db'.Ok

theorem Sub.refl (db : Store) : db.Sub db := ⟨fun _ _ _ => id, fun _ _ => id, fun _ _ => rfl⟩

theorem Sub.trans {a b c : Store} (h : a.Sub b) (h' : b.Sub c) : a.Sub c :=
  ⟨fun _ _ _ hx => h'.header _ _ _ (h.header _ _ _ hx),
    fun _ _ hx => h'.headerHeight _ _ (h.headerHeight _ _ hx),
    fun n hn => (h'.canonicalHash n (by rw [h.canonicalHash n hn]; exact hn)).trans
      (h.canonicalHash n hn)⟩

theorem Sub.withHead {db db' : Store} (h : db.Sub db') (x : Hash) :
    { db with headHeaderHash := x }.Sub db' :=
  ⟨h.header, h.headerHeight, h.canonicalHash⟩

theorem Ok.of_sub {db db' : Store} (h : db'.Ok) (hs : db.Sub db') : db.Ok where
  header x n H hx := h.header x n H (hs.header _ _ _ hx)
  unique x n m H H' hx hy := h.unique x n m H H' (hs.header _ _ _ hx) (hs.header _ _ _ hy)
  headerHeight x n m H hx hy := h.headerHeight x n m H (hs.headerHeight _ _ hx) (hs.header _ _ _ hy)
  canonicalHash n m H hn hx := by
    have he := hs.canonicalHash n hn
    rw [← he] at hn hx
    exact h.canonicalHash n m H hn (hs.header _ _ _ hx)

theorem apply_sub (db : Store) (op : BatchOp) : (db.apply op).Sub db := by
  cases op with
  | delFn => exact Sub.refl db
  | deleteHeader x n =>
    refine ⟨fun y m H hy => ?_, fun y m hy => ?_, fun _ _ => rfl⟩
    · simp only [apply] at hy; split_ifs at hy; exact hy
    · simp only [apply] at hy; split_ifs at hy; exact hy
  | deleteCanonicalHash n =>
    refine ⟨fun _ _ _ => id, fun _ _ => id, fun m hm => ?_⟩
    simp only [apply] at hm ⊢
    split_ifs at hm ⊢
    · exact absurd rfl hm
    · rfl

theorem write_sub (db : Store) (batch : List BatchOp) : (db.write batch).Sub db := by
  induction batch generalizing db with
  | nil => exact Sub.refl db
  | cons op batch ih => exact (ih (db.apply op)).trans (apply_sub db op)

@[simp] theorem write_nil (db : Store) : db.write [] = db := rfl

@[simp] theorem write_cons (db : Store) (op : BatchOp) (batch : List BatchOp) :
    db.write (op :: batch) = (db.apply op).write batch := rfl

theorem write_canonicalHash (db : Store) (batch : List BatchOp) (n : Nat) :
    (db.write batch).canonicalHash n =
      if .deleteCanonicalHash n ∈ batch then 0 else db.canonicalHash n := by
  induction batch generalizing db with
  | nil => simp
  | cons op batch ih =>
    rw [write_cons, ih]
    cases op <;> by_cases hm : BatchOp.deleteCanonicalHash n ∈ batch <;> simp [apply, hm, eq_comm]

theorem write_header (db : Store) (batch : List BatchOp) (x : Hash) (n : Nat) :
    (db.write batch).header x n = if .deleteHeader x n ∈ batch then none else db.header x n := by
  induction batch generalizing db with
  | nil => simp
  | cons op batch ih =>
    rw [write_cons, ih]
    cases op <;> by_cases hm : BatchOp.deleteHeader x n ∈ batch <;>
      simp [apply, hm, eq_comm, and_comm]

open Classical in
theorem write_headerHeight (db : Store) (batch : List BatchOp) (x : Hash) :
    (db.write batch).headerHeight x =
      if ∃ n, .deleteHeader x n ∈ batch then none else db.headerHeight x := by
  induction batch generalizing db with
  | nil => simp
  | cons op batch ih =>
    rw [write_cons, ih]
    cases op <;> by_cases hm : ∃ n, BatchOp.deleteHeader x n ∈ batch <;> simp [apply, hm, exists_or]

def ofHeaders (hs canon : List Header) (headBlockHash : Hash) : Store where
  canonicalHash n := ((canon.find? fun H => H.height == n).map Header.hash).getD 0
  header x n := hs.find? fun H => H.hash == x && H.height == n
  headerHeight x := (hs.find? fun H => H.hash == x).map Header.height
  headHeaderHash := headBlockHash
  headBlockHash := headBlockHash

theorem ofHeaders_ok {hs canon : List Header} (b : Hash) (hn : (hs.map Header.hash).Nodup)
    (hc : ∀ H ∈ canon, H ∈ hs) : (ofHeaders hs canon b).Ok := by
  have hinj := List.inj_on_of_nodup_map hn
  have hmem : ∀ {x n H}, (ofHeaders hs canon b).header x n = some H →
      H ∈ hs ∧ H.hash = x ∧ H.height = n := fun h =>
    ⟨List.mem_of_find?_eq_some h, by simpa using List.find?_some h⟩
  refine ⟨fun _ _ _ h => ?_, fun _ _ _ _ _ h h' => ?_, fun x n _ _ h h' => ?_,
    fun n _ _ hn' h => ?_⟩
  · obtain ⟨-, h1, h2⟩ := hmem h
    exact ⟨h2, h1⟩
  · obtain ⟨m1, x1, rfl⟩ := hmem h
    obtain ⟨m2, x2, rfl⟩ := hmem h'
    rw [hinj m1 m2 (x1.trans x2.symm)]
  · obtain ⟨H0, h0, rfl⟩ := Option.map_eq_some'.1 h
    obtain ⟨m2, x2, rfl⟩ := hmem h'
    have hx0 : H0.hash = x := by simpa using List.find?_some h0
    rw [hinj m2 (List.mem_of_find?_eq_some h0) (x2.trans hx0.symm)]
  · obtain ⟨m2, x2, rfl⟩ := hmem h
    cases h0 : canon.find? fun H => H.height == n with
    | none => simp [ofHeaders, h0] at hn'
    | some C =>
      have hC : C.height = n := by simpa using List.find?_some h0
      have hx : (ofHeaders hs canon b).canonicalHash n = C.hash := by simp [ofHeaders, h0]
      rw [hinj m2 (hc C (List.mem_of_find?_eq_some h0)) (x2.trans hx), hC]

end Store

namespace CachedStore

def Coherent (c : CachedStore) : Prop :=
  c.headerCache.All (fun x H => c.chainDb.header x H.height = some H) ∧
    c.heightCache.All (fun x n => c.chainDb.headerHeight x = some n)

theorem Coherent.sub {c : CachedStore} (h : c.Coherent) {db : Store} (hs : c.chainDb.Sub db) :
    { c with chainDb := db }.Coherent :=
  ⟨fun e he => hs.header _ _ _ (h.1 e he), fun e he => hs.headerHeight _ _ (h.2 e he)⟩

theorem uncached_coherent (c : CachedStore) : c.uncached.Coherent :=
  ⟨LRU.all_purge _ _, LRU.all_purge _ _⟩

section GetHeader

variable {c : CachedStore} {x : Hash} {n : Nat}

@[simp] theorem getHeader_chainDb : (c.getHeader x n).2.chainDb = c.chainDb := by
  unfold getHeader; split <;> (try split) <;> rfl

@[simp] theorem getHeader_heightCache : (c.getHeader x n).2.heightCache = c.heightCache := by
  unfold getHeader; split <;> (try split) <;> rfl

theorem getHeader_coherent (hc : c.Coherent) (hok : c.chainDb.Ok) :
    (c.getHeader x n).2.Coherent := by
  unfold getHeader
  split
  · rename_i cache hg
    exact ⟨by simpa [hg] using hc.1.get x, hc.2⟩
  · rename_i cache hg
    have hca : cache.All (fun x H => c.chainDb.header x H.height = some H) := by
      simpa [hg] using hc.1.get x
    split
    · exact ⟨hca, hc.2⟩
    · rename_i H hH
      exact ⟨hca.add ((hok.header x n H hH).1 ▸ hH), hc.2⟩

theorem getHeader_fst (hc : c.Coherent) (hn : ∀ m H, c.chainDb.header x m = some H → m = n) :
    (c.getHeader x n).1 = c.chainDb.header x n := by
  unfold getHeader
  split
  · rename_i H cache hg
    have hs : c.chainDb.header x H.height = some H := hc.1 _ (LRU.mem_of_get (by rw [hg]))
    rw [← hn _ _ hs, hs]
  · split <;> simp_all

end GetHeader

section GetBlockHeight

variable {c : CachedStore} {x : Hash}

@[simp] theorem getBlockHeight_chainDb : (c.getBlockHeight x).2.chainDb = c.chainDb := by
  unfold getBlockHeight; split <;> (try split) <;> rfl

@[simp] theorem getBlockHeight_headerCache :
    (c.getBlockHeight x).2.headerCache = c.headerCache := by
  unfold getBlockHeight; split <;> (try split) <;> rfl

theorem getBlockHeight_coherent (hc : c.Coherent) : (c.getBlockHeight x).2.Coherent := by
  unfold getBlockHeight
  split
  · rename_i cache hg
    exact ⟨hc.1, by simpa [hg] using hc.2.get x⟩
  · rename_i cache hg
    have hca : cache.All (fun x n => c.chainDb.headerHeight x = some n) := by
      simpa [hg] using hc.2.get x
    split
    · exact ⟨hc.1, hca⟩
    · rename_i n hn
      exact ⟨hc.1, hca.add hn⟩

theorem getBlockHeight_fst (hc : c.Coherent) :
    (c.getBlockHeight x).1 = c.chainDb.headerHeight x := by
  unfold getBlockHeight
  split
  · rename_i n cache hg
    exact (hc.2 _ (LRU.mem_of_get (by rw [hg]))).symm
  · split <;> simp_all

end GetBlockHeight

theorem getHeaderByHeight_coherent {c : CachedStore} (hc : c.Coherent) (hok : c.chainDb.Ok)
    (n : Nat) : (c.getHeaderByHeight n).2.Coherent := by
  simp only [getHeaderByHeight]
  split
  · exact hc
  · exact getHeader_coherent hc hok

theorem getHeaderByHeight_fst {c : CachedStore} (hc : c.Coherent) (hok : c.chainDb.Ok) (n : Nat) :
    (c.getHeaderByHeight n).1 =
      if c.chainDb.canonicalHash n = 0 then none
      else c.chainDb.header (c.chainDb.canonicalHash n) n := by
  simp only [getHeaderByHeight]
  split
  · rfl
  · rename_i hn
    exact getHeader_fst hc fun m H hm => hok.canonicalHash n m H hn hm

@[simp] theorem getHeaderByHeight_chainDb (c : CachedStore) (n : Nat) :
    (c.getHeaderByHeight n).2.chainDb = c.chainDb := by
  simp only [getHeaderByHeight]; split <;> simp

theorem getHeaderByHash_coherent {c : CachedStore} (hc : c.Coherent) (hok : c.chainDb.Ok)
    (x : Hash) : (c.getHeaderByHash x).2.Coherent := by
  unfold getHeaderByHash
  have hb := getBlockHeight_coherent (x := x) hc
  have hdb := getBlockHeight_chainDb (c := c) (x := x)
  split
  · rename_i c' hg
    simpa [hg] using hb
  · rename_i n c' hg
    rw [hg] at hb hdb
    exact getHeader_coherent hb (hdb ▸ hok)

theorem getHeaderByHash_fst {c : CachedStore} (hc : c.Coherent) (hok : c.chainDb.Ok) (x : Hash) :
    (c.getHeaderByHash x).1 = (c.chainDb.headerHeight x).bind (c.chainDb.header x) := by
  unfold getHeaderByHash
  have hf := getBlockHeight_fst (x := x) hc
  have hb := getBlockHeight_coherent (x := x) hc
  have hdb := getBlockHeight_chainDb (c := c) (x := x)
  split
  · rename_i c' hg
    rw [hg] at hf
    simp [← hf]
  · rename_i n c' hg
    rw [hg] at hf hb hdb
    simp only at hf hb hdb
    rw [← hf, Option.some_bind, getHeader_fst hb (fun m H hm => ?_), hdb]
    exact hok.headerHeight x n m H hf.symm (hdb ▸ hm)

@[simp] theorem getHeaderByHash_chainDb (c : CachedStore) (x : Hash) :
    (c.getHeaderByHash x).2.chainDb = c.chainDb := by
  unfold getHeaderByHash
  have hdb := getBlockHeight_chainDb (c := c) (x := x)
  split <;> rename_i hg <;> rw [hg] at hdb <;> simpa using hdb

theorem getHeaderByHash_of_empty {c : CachedStore} (h : c.heightCache.entries = []) {x : Hash}
    (hx : c.chainDb.headerHeight x = none) : (c.getHeaderByHash x).1 = none := by
  simp [getHeaderByHash, getBlockHeight, LRU.get_of_entries_nil h, hx]

end CachedStore

namespace HeaderChain

theorem rewind_chainDb {head : Nat} {delFn : Option DeleteCallback} {fuel : Nat}
    {hc : HeaderChain} {batch : List BatchOp} {r : HeaderChain × List BatchOp}
    (h : rewind head delFn fuel hc batch = some r) :
    r.1.chainDb = hc.chainDb ∧ r.1.genesisHeader = hc.genesisHeader := by
  induction fuel generalizing hc batch with
  | zero => cases h
  | succ fuel ih =>
    simp only [rewind] at h
    split at h
    · split_ifs at h
      · simpa using ih h
      · cases h; exact ⟨rfl, rfl⟩
    · cases h; exact ⟨rfl, rfl⟩

theorem setHead_eq {fuel head : Nat} {delFn : Option DeleteCallback} {hc : HeaderChain}
    {r : HeaderChain × List BatchOp} (h : hc.setHead fuel head delFn = some r) :
    ∃ hc' batch, rewind head delFn fuel hc [] = some (hc', batch) ∧
      r.2 = batch ++ canonicalOps (match hc.currentHeader with
        | some hdr => hdr.height
        | none => 0) head ∧
      r.1.chainDb = { hc'.chainDb.write r.2 with
        headHeaderHash := (hc'.currentHeader.getD hc'.genesisHeader).hash } ∧
      r.1.headerCache = hc'.headerCache.purge ∧ r.1.heightCache = hc'.heightCache.purge ∧
      r.1.genesisHeader = hc'.genesisHeader ∧
      r.1.currentHeader = some (hc'.currentHeader.getD hc'.genesisHeader) ∧
      r.1.currentHeaderHash = (hc'.currentHeader.getD hc'.genesisHeader).hash := by
  simp only [setHead, Option.map_eq_some'] at h
  obtain ⟨⟨hc', batch⟩, hr, rfl⟩ := h
  exact ⟨hc', batch, hr, rfl, rfl, rfl, rfl, rfl, rfl, rfl⟩

end HeaderChain

open HeaderChain

/-- An operation on the chain, or the store gaining entries between two operations. -/
inductive ChainOp where
  | getHeader (hash : Hash) (height : Nat)
  | getHeaderByHash (hash : Hash)
  | getHeaderByHeight (height : Nat)
  | getBlockHeight (hash : Hash)
  | setCurrentHeader (head : Header)
  | setGenesis (head : Header)
  | setHead (head : Nat) (delFn : Option DeleteCallback)
  | grow (chainDb : Store)

def ChainOp.WritesHead : ChainOp → Prop
  | .setCurrentHeader _ => True
  | .setHead _ _ => True
  | _ => False

/-- One operation; `SetHead` is the result of its loop once it ends. -/
inductive ChainStep : HeaderChain → ChainOp → HeaderChain → Prop where
  | getHeader (hc : HeaderChain) (x : Hash) (n : Nat) :
      ChainStep hc (.getHeader x n) { hc with toCachedStore := (hc.getHeader x n).2 }
  | getHeaderByHash (hc : HeaderChain) (x : Hash) :
      ChainStep hc (.getHeaderByHash x) { hc with toCachedStore := (hc.getHeaderByHash x).2 }
  | getHeaderByHeight (hc : HeaderChain) (n : Nat) :
      ChainStep hc (.getHeaderByHeight n) { hc with toCachedStore := (hc.getHeaderByHeight n).2 }
  | getBlockHeight (hc : HeaderChain) (x : Hash) :
      ChainStep hc (.getBlockHeight x) { hc with toCachedStore := (hc.getBlockHeight x).2 }
  | setCurrentHeader (hc : HeaderChain) (head : Header) :
      ChainStep hc (.setCurrentHeader head) (hc.setCurrentHeader head)
  | setGenesis (hc : HeaderChain) (head : Header) :
      ChainStep hc (.setGenesis head) (hc.setGenesis head)
  | setHead (hc : HeaderChain) (head fuel : Nat) (delFn : Option DeleteCallback)
      (r : HeaderChain × List BatchOp) (h : hc.setHead fuel head delFn = some r) :
      ChainStep hc (.setHead head delFn) r.1
  | grow (hc : HeaderChain) (db : Store) (h : hc.chainDb.Grows db) :
      ChainStep hc (.grow db) { hc with chainDb := db }

inductive ChainRun : HeaderChain → List ChainOp → HeaderChain → Prop where
  | nil (hc : HeaderChain) : ChainRun hc [] hc
  | cons {hc hc' hc'' : HeaderChain} {op : ChainOp} {ops : List ChainOp} :
      ChainStep hc op hc' → ChainRun hc' ops hc'' → ChainRun hc (op :: ops) hc''

section CurrentHeader

def CurrentInv (hc : HeaderChain) : Prop :=
  ∃ H, hc.currentHeader = some H ∧ hc.currentHeaderHash = H.hash

def HeadPersisted (hc : HeaderChain) : Prop := hc.chainDb.headHeaderHash = hc.currentHeaderHash

theorem newHeaderChain_currentInv {db : Store} {hc : HeaderChain}
    (h : newHeaderChain db = .ok hc) : CurrentInv hc := by
  simp only [newHeaderChain] at h
  split at h
  · cases h
  · cases h; exact ⟨_, rfl, rfl⟩

theorem currentInv_step {hc hc' : HeaderChain} {op : ChainOp} (hs : ChainStep hc op hc')
    (h : CurrentInv hc) :
    CurrentInv hc' ∧ (op.WritesHead → HeadPersisted hc') ∧
      (HeadPersisted hc → HeadPersisted hc') := by
  cases hs with
  | setCurrentHeader head =>
    exact ⟨⟨head, rfl, rfl⟩, fun _ => rfl, fun _ => rfl⟩
  | setHead head fuel delFn r hr =>
    obtain ⟨hc', batch, -, -, hdb, -, -, -, hcur, hhash⟩ := setHead_eq hr
    have hp : HeadPersisted r.1 := by rw [HeadPersisted, hdb, hhash]
    exact ⟨⟨_, hcur, hhash⟩, fun _ => hp, fun _ => hp⟩
  | grow db hg =>
    exact ⟨h, fun h' => h'.elim, fun hp => hg.2.1.trans hp⟩
  | getHeader | getHeaderByHash | getHeaderByHeight | getBlockHeight | setGenesis =>
    exact ⟨h, fun h' => h'.elim, fun hp => by simpa [HeadPersisted, setGenesis] using hp⟩

theorem currentInv_run {hc hc' : HeaderChain} {ops : List ChainOp} (hr : ChainRun hc ops hc')
    (h : CurrentInv hc) :
    CurrentInv hc' ∧
      ((HeadPersisted hc ∨ ∃ op ∈ ops, op.WritesHead) → HeadPersisted hc') := by
  induction hr with
  | nil => exact ⟨h, fun hp => hp.resolve_right (by simp)⟩
  | cons hs _ ih =>
    obtain ⟨h1, h2, h3⟩ := currentInv_step hs h
    obtain ⟨ih1, ih2⟩ := ih h1
    refine ⟨ih1, fun hp => ih2 ?_⟩
    rcases hp with hp | ⟨op, hop, hw⟩
    · exact .inl (h3 hp)
    · rcases List.mem_cons.1 hop with rfl | hop
      · exact .inl (h2 hw)
      · exact .inr ⟨op, hop, hw⟩

theorem current_header_of_run {db : Store} {hc₀ hc : HeaderChain} {ops : List ChainOp}
    (h0 : newHeaderChain db = .ok hc₀) (hr : ChainRun hc₀ ops hc) :
    (∃ H, hc.currentHeader = some H ∧ hc.currentHeaderHash = H.hash) ∧
      ((∃ op ∈ ops, op.WritesHead) → hc.chainDb.headHeaderHash = hc.currentHeaderHash) := by
  obtain ⟨h1, h2⟩ := currentInv_run hr (newHeaderChain_currentInv h0)
  exact ⟨h1, fun hw => h2 (.inr hw)⟩

def sampleHeaders : List Header := [⟨0, 0, 1⟩, ⟨1, 1, 2⟩, ⟨2, 2, 3⟩]

def sampleDb : Store := Store.ofHeaders sampleHeaders sampleHeaders 3

theorem sampleDb_ok : sampleDb.Ok := Store.ofHeaders_ok 3 (by decide) fun _ h => h

theorem current_header_of_sample_run :
    ∃ hc₀ hc, newHeaderChain sampleDb = .ok hc₀ ∧
      ChainRun hc₀ [.getHeaderByHeight 1, .setCurrentHeader ⟨1, 1, 2⟩, .setHead 0 none] hc ∧
      (∃ H, hc.currentHeader = some H ∧ hc.currentHeaderHash = H.hash) ∧
      ((∃ op ∈ [ChainOp.getHeaderByHeight 1, .setCurrentHeader ⟨1, 1, 2⟩, .setHead 0 none],
          op.WritesHead) →
        hc.chainDb.headHeaderHash = hc.currentHeaderHash) :=
  have h0 : newHeaderChain sampleDb = .ok _ := rfl
  have hr := ChainRun.cons (.getHeaderByHeight _ 1)
    (.cons (.setCurrentHeader _ ⟨1, 1, 2⟩) (.cons (.setHead _ 0 2 none _ (by rfl)) (.nil _)))
  ⟨_, _, h0, hr, current_header_of_run h0 hr⟩

end CurrentHeader

section Coherence

theorem CachedStore.lookups_uncached {c : CachedStore} (hc : c.Coherent) (hok : c.chainDb.Ok)
    (x : Hash) (n : Nat) :
    (c.getBlockHeight x).1 = (c.uncached.getBlockHeight x).1 ∧
      (c.getHeaderByHash x).1 = (c.uncached.getHeaderByHash x).1 ∧
      (c.getHeaderByHeight n).1 = (c.uncached.getHeaderByHeight n).1 ∧
      ((∀ m H, c.chainDb.header x m = some H → m = n) →
        (c.getHeader x n).1 = (c.uncached.getHeader x n).1) := by
  have hu := c.uncached_coherent
  refine ⟨?_, ?_, ?_, fun hn => ?_⟩
  · rw [getBlockHeight_fst hc, getBlockHeight_fst hu]; rfl
  · rw [getHeaderByHash_fst hc hok, getHeaderByHash_fst hu hok]; rfl
  · rw [getHeaderByHeight_fst hc hok, getHeaderByHeight_fst hu hok]; rfl
  · rw [getHeader_fst hc hn, getHeader_fst hu hn]; rfl

def StoreInv (hc : HeaderChain) : Prop := hc.chainDb.Ok ∧ hc.Coherent

theorem newHeaderChain_cachedStore {db : Store} {hc : HeaderChain}
    (h : newHeaderChain db = .ok hc) :
    hc.toCachedStore = (CachedStore.getHeaderByHeight ⟨db, .new headerCacheLimit,
        .new heightCacheLimit⟩ 0).2 ∨
      hc.toCachedStore = ((CachedStore.getHeaderByHeight ⟨db, .new headerCacheLimit,
        .new heightCacheLimit⟩ 0).2.getHeaderByHash db.headBlockHash).2 := by
  simp only [newHeaderChain] at h
  split at h
  · cases h
  · rename_i hg
    cases h
    rw [hg]
    split_ifs
    · exact .inr (by split <;> simp_all)
    · exact .inl rfl

theorem newHeaderChain_storeInv {db : Store} {hc : HeaderChain} (hdb : db.Ok)
    (h : newHeaderChain db = .ok hc) : StoreInv hc := by
  have h0 : CachedStore.Coherent ⟨db, .new headerCacheLimit, .new heightCacheLimit⟩ :=
    ⟨LRU.all_new _ _, LRU.all_new _ _⟩
  have hok : (CachedStore.getHeaderByHeight ⟨db, .new headerCacheLimit,
      .new heightCacheLimit⟩ 0).2.chainDb.Ok := by
    rw [CachedStore.getHeaderByHeight_chainDb]; exact hdb
  have hc1 := CachedStore.getHeaderByHeight_coherent h0 hdb 0
  rcases newHeaderChain_cachedStore h with he | he <;> rw [StoreInv, he]
  · exact ⟨hok, hc1⟩
  · exact ⟨by simpa using hok, CachedStore.getHeaderByHash_coherent hc1 hok _⟩

theorem storeInv_step {hc hc' : HeaderChain} {op : ChainOp} (hs : ChainStep hc op hc')
    (h : StoreInv hc) : StoreInv hc' := by
  obtain ⟨hok, hcoh⟩ := h
  cases hs with
  | getHeader x n =>
    exact ⟨by simpa using hok, CachedStore.getHeader_coherent hcoh hok⟩
  | getHeaderByHash x =>
    exact ⟨by simpa using hok, CachedStore.getHeaderByHash_coherent hcoh hok x⟩
  | getHeaderByHeight n =>
    exact ⟨by simpa using hok, CachedStore.getHeaderByHeight_coherent hcoh hok n⟩
  | getBlockHeight x =>
    exact ⟨by simpa using hok, CachedStore.getBlockHeight_coherent hcoh⟩
  | setCurrentHeader head => exact ⟨hok.of_sub ((Store.Sub.refl _).withHead _), hcoh⟩
  | setGenesis head => exact ⟨hok, hcoh⟩
  | setHead head fuel delFn r hr =>
    obtain ⟨hc', batch, hrw, -, hdb, hhc, hyc, -⟩ := setHead_eq hr
    have hsub : r.1.chainDb.Sub hc.chainDb := by
      rw [hdb, ← (rewind_chainDb hrw).1]
      exact (Store.write_sub hc'.chainDb r.2).withHead _
    refine ⟨hok.of_sub hsub, ?_⟩
    rw [CachedStore.Coherent, hhc, hyc]
    exact ⟨LRU.all_purge _ _, LRU.all_purge _ _⟩
  | grow db hg => exact ⟨hg.2.2.2, hcoh.sub hg.1⟩

theorem storeInv_run {hc hc' : HeaderChain} {ops : List ChainOp} (hr : ChainRun hc ops hc')
    (h : StoreInv hc) : StoreInv hc' := by
  induction hr with
  | nil => exact h
  | cons hs _ ih => exact ih (storeInv_step hs h)

theorem lookups_agree_with_store {db : Store} {hc₀ hc : HeaderChain} {ops : List ChainOp}
    (hdb : db.Ok) (h0 : newHeaderChain db = .ok hc₀) (hr : ChainRun hc₀ ops hc) :
    hc.Coherent ∧ ∀ x n,
      (hc.getBlockHeight x).1 = (hc.uncached.getBlockHeight x).1 ∧
      (hc.getHeaderByHash x).1 = (hc.uncached.getHeaderByHash x).1 ∧
      (hc.getHeaderByHeight n).1 = (hc.uncached.getHeaderByHeight n).1 ∧
      ((∀ m H, hc.chainDb.header x m = some H → m = n) →
        (hc.getHeader x n).1 = (hc.uncached.getHeader x n).1) := by
  obtain ⟨hok, hcoh⟩ := storeInv_run hr (newHeaderChain_storeInv hdb h0)
  exact ⟨hcoh, CachedStore.lookups_uncached hcoh hok⟩

theorem lookups_agree_with_sample_store :
    ∃ hc₀ hc, sampleDb.Ok ∧ newHeaderChain sampleDb = .ok hc₀ ∧
      ChainRun hc₀ [.getHeaderByHash 3, .setHead 0 none] hc ∧
      hc.Coherent ∧ ∀ x n,
        (hc.getBlockHeight x).1 = (hc.uncached.getBlockHeight x).1 ∧
        (hc.getHeaderByHash x).1 = (hc.uncached.getHeaderByHash x).1 ∧
        (hc.getHeaderByHeight n).1 = (hc.uncached.getHeaderByHeight n).1 ∧
        ((∀ m H, hc.chainDb.header x m = some H → m = n) →
          (hc.getHeader x n).1 = (hc.uncached.getHeader x n).1) :=
  have h0 : newHeaderChain sampleDb = .ok _ := rfl
  have hr := ChainRun.cons (.getHeaderByHash _ 3) (.cons (.setHead _ 0 3 none _ (by rfl)) (.nil _))
  ⟨_, _, sampleDb_ok, h0, hr, lookups_agree_with_store sampleDb_ok h0 hr⟩

end Coherence

end Kardia
