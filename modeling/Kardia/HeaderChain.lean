import Kardia.Values
import Kardia.Lru

/-!
`blockchain/headerchain.go`: the header chain over its key-value store and two LRU caches.
-/

namespace Kardia

/-- The `types.Header` as the chain reads it; `hash` is what `Hash()` computes. -/
structure Header where
  height : Nat
  lastCommitHash : Hash
  hash : Hash
deriving DecidableEq, Repr

/-- The store through the `rawdb` accessors the chain uses; `canonicalHash n` is `0` when
height `n` has none. -/
structure Store where
  canonicalHash : Nat → Hash
  header : Hash → Nat → Option Header
  headerHeight : Hash → Option Nat
  headHeaderHash : Hash
  headBlockHash : Hash

/-- A `DeleteCallback`. What it writes goes to tables this model leaves out; its calls
are recorded in the batch. -/
structure DeleteCallback where

inductive BatchOp where
  | delFn (hash : Hash) (height : Nat)
  | deleteHeader (hash : Hash) (height : Nat)
  | deleteCanonicalHash (height : Nat)
deriving DecidableEq, Repr

namespace Store

/-- Modelled from the spec: `rawdb.DeleteHeader` removes `header[hash, height]` and
`header_height[hash]`; `rawdb.DeleteCanonicalHash` removes `canonical_hash[height]`. -/
def apply (db : Store) : BatchOp → Store
  | .delFn _ _ => db
  | .deleteHeader x n =>
    { db with
      header := fun y m => if y = x ∧ m = n then none else db.header y m
      headerHeight := fun y => if y = x then none else db.headerHeight y }
  | .deleteCanonicalHash n =>
    { db with canonicalHash := fun m => if m = n then 0 else db.canonicalHash m }

/-- The call `batch.Write()`. -/
def write (db : Store) (batch : List BatchOp) : Store := batch.foldl apply db

end Store

structure CachedStore where
  chainDb : Store
  headerCache : LRU Hash Header
  heightCache : LRU Hash Nat

structure HeaderChain extends CachedStore where
  genesisHeader : Header
  currentHeader : Option Header
  currentHeaderHash : Hash

def headerCacheLimit : Nat := 512

def heightCacheLimit : Nat := 2048

namespace CachedStore

/-- From `GetHeader`, lines 90-102: the cache is keyed by the hash alone. -/
def getHeader (c : CachedStore) (hash : Hash) (height : Nat) : Option Header × CachedStore :=
  match c.headerCache.get hash with
  | (some header, cache) => (some header, { c with headerCache := cache })
  | (none, cache) =>
    match c.chainDb.header hash height with
    | none => (none, { c with headerCache := cache })
    | some header => (some header, { c with headerCache := cache.add hash header })

/-- From `GetHeaderByHeight`, lines 79-86. -/
def getHeaderByHeight (c : CachedStore) (height : Nat) : Option Header × CachedStore :=
  let hash := c.chainDb.canonicalHash height
  if hash = 0 then (none, c) else c.getHeader hash height

/-- From `GetBlockHeight`, lines 116-126. -/
def getBlockHeight (c : CachedStore) (hash : Hash) : Option Nat × CachedStore :=
  match c.heightCache.get hash with
  | (some height, cache) => (some height, { c with heightCache := cache })
  | (none, cache) =>
    match c.chainDb.headerHeight hash with
    | none => (none, { c with heightCache := cache })
    | some height => (some height, { c with heightCache := cache.add hash height })

/-- From `GetHeaderByHash`, lines 106-112. -/
def getHeaderByHash (c : CachedStore) (hash : Hash) : Option Header × CachedStore :=
  match c.getBlockHeight hash with
  | (none, c) => (none, c)
  | (some height, c) => c.getHeader hash height

def uncached (c : CachedStore) : CachedStore :=
  { c with headerCache := c.headerCache.purge, heightCache := c.heightCache.purge }

end CachedStore

inductive ChainError where
  | noGenesis
deriving DecidableEq, Repr

namespace HeaderChain

/-- From `NewHeaderChain`, lines 46-75. -/
def newHeaderChain (chainDb : Store) : Except ChainError HeaderChain :=
  let c : CachedStore := ⟨chainDb, LRU.new headerCacheLimit, LRU.new heightCacheLimit⟩
  match c.getHeaderByHeight 0 with
  | (none, _) => .error .noGenesis
  | (some genesis, c) =>
    let r : Header × CachedStore :=
      if chainDb.headBlockHash ≠ 0 then
        match c.getHeaderByHash chainDb.headBlockHash with
        | (some chead, c) => (chead, c)
        | (none, c) => (genesis, c)
      else (genesis, c)
    .ok { toCachedStore := r.2, genesisHeader := genesis, currentHeader := some r.1
          currentHeaderHash := r.1.hash }

/-- From `SetCurrentHeader`, lines 129-134. -/
def setCurrentHeader (hc : HeaderChain) (head : Header) : HeaderChain :=
  { hc with
    chainDb := { hc.chainDb with headHeaderHash := head.hash }
    currentHeader := some head
    currentHeaderHash := head.hash }

/-- From `SetGenesis`, lines 137-139. -/
def setGenesis (hc : HeaderChain) (head : Header) : HeaderChain :=
  { hc with genesisHeader := head }

/-- What the rewind loop of `SetHead` hands the batch for `hdr`, lines 155-160. -/
def deleteOps (delFn : Option DeleteCallback) (hdr : Header) : List BatchOp :=
  (if delFn.isSome then [.delFn hdr.hash hdr.height] else []) ++
    [.deleteHeader hdr.hash hdr.height]

/-- The rewind loop of `SetHead`, lines 154-163, allowed `fuel` passes; `none` when it has
not ended by then. -/
def rewind (head : Nat) (delFn : Option DeleteCallback) :
    Nat → HeaderChain → List BatchOp → Option (HeaderChain × List BatchOp)
  | 0, _, _ => none
  | fuel + 1, hc, batch =>
    match hc.currentHeader with
    | some hdr =>
      if head < hdr.height then
        let r := hc.toCachedStore.getHeader hdr.lastCommitHash (hdr.height - 1)
        rewind head delFn fuel { hc with toCachedStore := r.2, currentHeader := r.1 }
          (batch ++ deleteOps delFn hdr)
      else some (hc, batch)
    | none => some (hc, batch)

/-- The loop `for i := height; i > head; i--`, lines 165-167. -/
def canonicalOps (height head : Nat) : List BatchOp :=
  (List.range (height - head)).map fun i => .deleteCanonicalHash (height - i)

/-- From `SetHead`, lines 147-180, with `fuel` passes of the rewind loop. It returns the chain
and the batch it wrote. -/
def setHead (fuel head : Nat) (delFn : Option DeleteCallback) (hc : HeaderChain) :
    Option (HeaderChain × List BatchOp) :=
  let height := match hc.currentHeader with
    | some hdr => hdr.height
    | none => 0
  (rewind head delFn fuel hc []).map fun r =>
    let batch := r.2 ++ canonicalOps height head
    let current := r.1.currentHeader.getD r.1.genesisHeader
    ({ r.1 with
        chainDb := { r.1.chainDb.write batch with headHeaderHash := current.hash }
        headerCache := r.1.headerCache.purge
        heightCache := r.1.heightCache.purge
        currentHeader := some current
        currentHeaderHash := current.hash }, batch)

end HeaderChain

end Kardia
