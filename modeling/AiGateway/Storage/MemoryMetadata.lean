import AiGateway.Core.GatewayKeys
import AiGateway.Library.F64
import AiGateway.Library.HashMap

/-!
# The in-memory metadata store (`gateway-storage/src/memory/mod.rs:78-243`)

Gateway keys and price overrides. A row sits in its map under its own key; the
store carries that fact. The clock is a parameter of the operations that read it.
`values()` walks a map in an order of its own, so the reads that walk one take
the order as an argument.
-/

namespace AiGateway.Storage
open AiGateway.Core AiGateway.Library

inductive KeyStatus where
  | active
  | revoked
  | expired
  deriving DecidableEq, Repr

inductive KeyOrigin where
  | admin
  | config
  deriving DecidableEq, Repr

structure GatewayKeyRow where
  id : String
  projectId : String
  name : String
  keyPrefix : String
  hash : Bytes
  last4 : String
  scopes : List String
  status : KeyStatus
  expiresAt : Option Int
  lastUsedAt : Option Int
  createdAt : Int
  revokedAt : Option Int
  origin : KeyOrigin
  deriving DecidableEq, Repr

structure NewGatewayKey where
  id : String
  projectId : String
  name : String
  keyPrefix : String
  hash : Bytes
  last4 : String
  scopes : List String
  expiresAt : Option Int
  origin : KeyOrigin
  deriving DecidableEq, Repr

structure PricingRow where
  provider : String
  model : String
  inputPer1k : F64
  outputPer1k : F64
  cachedInputPer1k : Option F64
  deriving DecidableEq, Repr

/-- `StorageError`, as far as this store returns it. -/
inductive StorageError where
  | notFound
  | conflict (msg : String)
  deriving DecidableEq, Repr

def StorageError.text : StorageError → String
  | .notFound => "not found"
  | .conflict msg => "conflict: " ++ msg

structure MemoryMetadataStore where
  keys : HashMap String GatewayKeyRow
  pricing : HashMap (String × String) PricingRow
  keysById : ∀ id row, keys.lookup id = some row → row.id = id
  pricingByName : ∀ name row, pricing.lookup name = some row → (row.provider, row.model) = name

namespace MemoryMetadataStore

@[ext]
theorem ext {s t : MemoryMetadataStore} (hkeys : s.keys = t.keys)
    (hpricing : s.pricing = t.pricing) : s = t := by
  obtain ⟨keys, pricing, hk, hp⟩ := s
  obtain ⟨keys', pricing', hk', hp'⟩ := t
  subst hkeys
  subst hpricing
  rfl

def empty : MemoryMetadataStore where
  keys := ∅
  pricing := ∅
  keysById := by
    intro id row h
    cases h
  pricingByName := by
    intro name row h
    cases h

/-- `keys.insert(row.id, row)`. -/
def putKey (s : MemoryMetadataStore) (row : GatewayKeyRow) : MemoryMetadataStore where
  keys := s.keys.insert row.id row
  pricing := s.pricing
  keysById := by
    intro id row' h
    rw [HashMap.lookup_insert_cases] at h
    split at h
    · rename_i hid
      cases h
      exact hid.symm
    · exact s.keysById id row' h
  pricingByName := s.pricingByName

def getKey (s : MemoryMetadataStore) (id : String) : Option GatewayKeyRow := s.keys.lookup id

theorem getKey_putKey (s : MemoryMetadataStore) (row : GatewayKeyRow) (id : String) :
    (s.putKey row).getKey id = if id = row.id then some row else s.getKey id :=
  HashMap.lookup_insert_cases s.keys row.id id row

theorem getKey_id {s : MemoryMetadataStore} {id : String} {row : GatewayKeyRow}
    (h : s.getKey id = some row) : row.id = id :=
  s.keysById id row h

/-! ### Gateway keys -/

def newRow (k : NewGatewayKey) (now : Int) : GatewayKeyRow :=
  { id := k.id
    projectId := k.projectId
    name := k.name
    keyPrefix := k.keyPrefix
    hash := k.hash
    last4 := k.last4
    scopes := k.scopes
    status := .active
    expiresAt := k.expiresAt
    lastUsedAt := none
    createdAt := now
    revokedAt := none
    origin := k.origin }

def createKey (s : MemoryMetadataStore) (k : NewGatewayKey) (now : Int) :
    GatewayKeyRow × MemoryMetadataStore :=
  (newRow k now, s.putKey (newRow k now))

/-- `order` is how `keys` iterates. -/
def findKeyByHash (order : List (String × GatewayKeyRow)) (hash : Bytes) : Option GatewayKeyRow :=
  (order.map Prod.snd).find? fun k => k.hash = hash

def revokeKey (s : MemoryMetadataStore) (id : String) (now : Int) :
    Except StorageError Unit × MemoryMetadataStore :=
  match s.getKey id with
  | some k => (.ok (), s.putKey { k with status := .revoked, revokedAt := some now })
  | none => (.error .notFound, s)

def touchKeyLastUsed (s : MemoryMetadataStore) (id : String) (ts : Int) : MemoryMetadataStore :=
  match s.getKey id with
  | some k => s.putKey { k with lastUsedAt := some ts }
  | none => s

/-- The row `upsert_seeded_key` writes: status and origin are reset, the creation
time and the last use of an existing row are kept. -/
def seededRow (s : MemoryMetadataStore) (k : NewGatewayKey) (now : Int) : GatewayKeyRow :=
  { id := k.id
    projectId := k.projectId
    name := k.name
    keyPrefix := k.keyPrefix
    hash := k.hash
    last4 := k.last4
    scopes := k.scopes
    status := .active
    expiresAt := k.expiresAt
    lastUsedAt := (s.getKey k.id).bind GatewayKeyRow.lastUsedAt
    createdAt := ((s.getKey k.id).map GatewayKeyRow.createdAt).getD now
    revokedAt := none
    origin := .config }

/-- The id belongs to a key that the config does not manage. -/
def adminOwned (s : MemoryMetadataStore) (id : String) : Bool :=
  (s.getKey id).any fun existing => existing.origin ≠ .config

def upsertSeededKey (s : MemoryMetadataStore) (k : NewGatewayKey) (now : Int) :
    Except StorageError GatewayKeyRow × MemoryMetadataStore :=
  if s.adminOwned k.id then
    (.error (.conflict ("gateway key '" ++ k.id ++
      "' is admin-managed; rename the config-seeded key")), s)
  else (.ok (s.seededRow k now), s.putKey (s.seededRow k now))

def pruned (projectId : String) (keepIds : List String) (k : GatewayKeyRow) : Bool :=
  k.projectId = projectId ∧ k.origin = .config ∧ k.id ∉ keepIds

-- the ids of the matching rows are removed, and a row sits under its own id
def pruneSeededKeysNotIn (s : MemoryMetadataStore) (projectId : String) (keepIds : List String) :
    MemoryMetadataStore where
  keys := HashMap.retain s.keys fun _ k => !pruned projectId keepIds k
  pricing := s.pricing
  keysById := by
    intro id row h
    exact s.keysById id row ((HashMap.lookup_retain _ _ _ _).mp h).1
  pricingByName := s.pricingByName

theorem getKey_prune {s : MemoryMetadataStore} {projectId : String} {keepIds : List String}
    {id : String} {row : GatewayKeyRow} :
    (s.pruneSeededKeysNotIn projectId keepIds).getKey id = some row ↔
      s.getKey id = some row ∧ pruned projectId keepIds row = false := by
  refine (HashMap.lookup_retain s.keys _ id row).trans ?_
  rw [Bool.not_eq_true']
  exact Iff.rfl

/-! ### Price overrides -/

def upsertPricing (s : MemoryMetadataStore) (p : PricingRow) : MemoryMetadataStore where
  keys := s.keys
  pricing := s.pricing.insert (p.provider, p.model) p
  keysById := s.keysById
  pricingByName := by
    intro name row h
    rw [HashMap.lookup_insert_cases] at h
    split at h
    · rename_i hname
      cases h
      exact hname.symm
    · exact s.pricingByName name row h

def deletePricing (s : MemoryMetadataStore) (provider model : String) : MemoryMetadataStore where
  keys := s.keys
  pricing := s.pricing.erase (provider, model)
  keysById := s.keysById
  pricingByName := by
    intro name row h
    rw [HashMap.lookup_erase_cases] at h
    split at h
    · cases h
    · exact s.pricingByName name row h

/-- `order` is how `pricing` iterates. -/
def listPricing (order : List ((String × String) × PricingRow)) : List PricingRow :=
  order.map Prod.snd

end MemoryMetadataStore

end AiGateway.Storage
