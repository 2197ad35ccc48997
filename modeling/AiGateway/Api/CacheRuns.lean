import AiGateway.Api.CacheWrites
import AiGateway.Api.Replay
import AiGateway.Storage.KvBackends

/-!
# The gateway and its cache (`gateway-api/src/routes/proxy.rs:196-220, 350-449`)

Any number of requests over one key-value store, interleaved at every statement of their lookups
and puts. A request is answered when its lookup has returned, from there or by the upstream; the
task behind a streamed response puts its payload at some later moment, or never. A put counts as
begun with its first statement.
-/

namespace AiGateway.Api
open AiGateway.Core AiGateway.Storage AiGateway.Library AiGateway.Library.Runs
open AiGateway.Library.Programs

/-- What all requests share. -/
structure Deployment where
  kv : KvBackend
  codec : PayloadCodec
  roundTrips : codec.RoundTrips
  blake3Hex : Bytes → String
  numText : Number → String

/-- The environment of a request, with what the lookup of a key gave. -/
def Deployment.environ (d : Deployment) (env : ProxyEnv)
    (kvGet : String → Except String (Option Bytes)) : ProxyEnv :=
  { env with
    kvGet
    decodeCached := d.codec.decode
    blake3Hex := d.blake3Hex
    numText := d.numText }

/-- An answered request with the answers that it got. -/
structure Served where
  env : ProxyEnv
  req : ProxyRequest
  lookedUpAt : ℕ
  -- how many puts had begun
  seen : ℕ

inductive CacheTask (d : Deployment) where
  | due (write : Option (String × CachedResponse × UInt64))
  | putting (rest : Fallible d.kv.Statement d.kv.Answer String Unit)

inductive Request (d : Deployment) where
  | lookingUp (env : ProxyEnv) (req : ProxyRequest) (key : String)
      (rest : Fallible d.kv.Statement d.kv.Answer String (Option Bytes))
  | served (record : Served) (task : CacheTask d)

structure CachingGateway (d : Deployment) where
  store : d.kv.State
  requests : List (Request d)
  writes : List KvWrite

inductive CachingMove (d : Deployment) where
  | arrive (env : ProxyEnv) (req : ProxyRequest)
  -- the next statement of request `i`
  | turn (i : ℕ) (fate : Fate)
  | internal (e : d.kv.Internal)

def CacheEvent.get? : CacheEvent → Option String
  | .get key => some key
  | _ => none

def CacheEvent.put? : CacheEvent → Option (String × CachedResponse × UInt64)
  | .put key payload ttl => some (key, payload, ttl)
  | _ => none

namespace CachingGateway
variable {d : Deployment}

def init (d : Deployment) : CachingGateway d := ⟨d.kv.new, [], []⟩

def notLookedUp : String → Except String (Option Bytes) := fun _ => .error "not looked up"

def serve (s : CachingGateway d) (env : ProxyEnv) (req : ProxyRequest) : Request d :=
  .served ⟨env, req, d.kv.now s.store, s.writes.length⟩
    (.due ((proxyEvents env req).2.findSome? CacheEvent.put?))

/-- The request goes on with its lookup, or is answered. -/
def resume (s : CachingGateway d) (env : ProxyEnv) (req : ProxyRequest) (key : String) :
    Fallible d.kv.Statement d.kv.Answer String (Option Bytes) → Request d
  | .ret found => s.serve (d.environ env fun k => if k = key then found else notLookedUp k) req
  | .exec q next => .lookingUp env req key (.exec q next)

def arrival (s : CachingGateway d) (env : ProxyEnv) (req : ProxyRequest) : Request d :=
  match (proxyEvents (d.environ env notLookedUp) req).2.findSome? CacheEvent.get? with
  | some key => .lookingUp env req key (d.kv.get key)
  | none => s.serve (d.environ env notLookedUp) req

/-- The first statement of a put by request `i`. -/
def beginPut (s : CachingGateway d) (i : ℕ) (record : Served) (key : String) (blob : Bytes)
    (ttl : Duration) (fate : Fate) :
    Fallible d.kv.Statement d.kv.Answer String Unit → Option (CachingGateway d)
  | .ret _ => none
  | .exec q next => (d.kv.exec q fate s.store).map fun r =>
    { store := r.2
      requests := s.requests.set i (.served record (.putting (next r.1)))
      writes := s.writes ++ [⟨i, key, blob, ttl, d.kv.now s.store⟩] }

def step (s : CachingGateway d) : CachingMove d → Option (CachingGateway d)
  | .arrive env req => some { s with requests := s.requests ++ [s.arrival env req] }
  | .turn i fate =>
    match s.requests[i]? with
    | some (.lookingUp env req key (.exec q next)) =>
      (d.kv.exec q fate s.store).map fun r =>
        let s := { s with store := r.2 }
        { s with requests := s.requests.set i (s.resume env req key (next r.1)) }
    | some (.served record (.due (some (key, payload, ttl)))) =>
      (d.codec.encode payload).toOption.bind fun blob =>
        s.beginPut i record key blob ⟨ttl, 0⟩ fate (d.kv.put key blob ⟨ttl, 0⟩)
    | some (.served record (.putting (.exec q next))) =>
      (d.kv.exec q fate s.store).map fun r =>
        { s with
          store := r.2
          requests := s.requests.set i (.served record (.putting (next r.1))) }
    | _ => none
  | .internal e => (d.kv.internal s.store e).map fun store => { s with store }

/-- A turn is one of a lookup, the first of a put or a later one. -/
theorem turn_cases {s t : CachingGateway d} {i : ℕ} {fate : Fate}
    (h : s.step (.turn i fate) = some t) :
    (∃ env req key q next a store, s.requests[i]? = some (.lookingUp env req key (.exec q next)) ∧
      d.kv.exec q fate s.store = some (a, store) ∧
      t = { s with
        store
        requests := s.requests.set i (resume { s with store } env req key (next a)) }) ∨
    (∃ record key payload ttl blob q next a store,
      s.requests[i]? = some (.served record (.due (some (key, payload, ttl)))) ∧
      d.codec.encode payload = .ok blob ∧ d.kv.put key blob ⟨ttl, 0⟩ = .exec q next ∧
      d.kv.exec q fate s.store = some (a, store) ∧
      t = ⟨store, s.requests.set i (.served record (.putting (next a))),
        s.writes ++ [⟨i, key, blob, ⟨ttl, 0⟩, d.kv.now s.store⟩]⟩) ∨
    ∃ record q next a store, s.requests[i]? = some (.served record (.putting (.exec q next))) ∧
      d.kv.exec q fate s.store = some (a, store) ∧
      t = { s with store, requests := s.requests.set i (.served record (.putting (next a))) } := by
  simp only [step] at h
  split at h
  · rename_i env req key q next hi
    obtain ⟨⟨a, store⟩, hexec, rfl⟩ := Option.map_eq_some_iff.mp h
    exact .inl ⟨env, req, key, q, next, a, store, hi, hexec, rfl⟩
  · rename_i record key payload ttl hi
    obtain ⟨blob, hblob, hput⟩ := Option.bind_eq_some_iff.mp h
    have hencode : d.codec.encode payload = .ok blob := by
      cases hresult : d.codec.encode payload with
      | error e => simp [hresult, Except.toOption] at hblob
      | ok blob' =>
        rw [hresult] at hblob
        cases hblob
        rfl
    cases hprogram : d.kv.put key blob ⟨ttl, 0⟩ with
    | ret a =>
      rw [hprogram] at hput
      cases hput
    | exec q next =>
      rw [hprogram] at hput
      obtain ⟨⟨a, store⟩, hexec, rfl⟩ := Option.map_eq_some_iff.mp hput
      exact .inr (.inl ⟨record, key, payload, ttl, blob, q, next, a, store, hi, hencode, hprogram,
        hexec, rfl⟩)
  · rename_i record q next hi
    obtain ⟨⟨a, store⟩, hexec, rfl⟩ := Option.map_eq_some_iff.mp h
    exact .inr (.inr ⟨record, q, next, a, store, hi, hexec, rfl⟩)
  · cases h

/-! ### Invariant -/

/-- The request got a response that is to be put under the key. -/
def DueUnder (d : Deployment) (r : Served) (key : String) (payload : CachedResponse) (ttl : UInt64) :
    Prop :=
  ∃ route policy response, ShouldWrite r.env r.req route policy response ∧
    cacheKey d.blake3Hex d.numText route.cache r.req = some key ∧
    payload.chunks = upstreamChunks response.body ∧ payload.status = response.status ∧
    ttl = policy.ttl

/-- The request that makes the write was to make it. -/
def Made (requests : List (Request d)) (w : KvWrite) : Prop :=
  ∃ r task payload ttl, requests[w.writer]? = some (.served r task) ∧
    DueUnder d r w.key payload ttl ∧ d.codec.encode payload = .ok w.value ∧ w.ttl = ⟨ttl, 0⟩

/-- The write had begun by the time of the lookup, and was not too old. -/
def InTime (d : Deployment) (r : Served) (w : KvWrite) : Prop :=
  w.beganAt ≤ r.lookedUpAt ∧ r.lookedUpAt ≤ w.beganAt + d.kv.lifetime w.ttl + d.kv.overstay

/-- A hit is answered with what one of the puts begun before wrote under its key. -/
def HitSound (d : Deployment) (writes : List KvWrite) (r : Served) : Prop :=
  ∀ cached, proxyExit r.env r.req = .cacheHit cached → ∃ route key blob,
    findRoute r.env.routes r.req.ns (extractModel r.req.requestJson) = some route ∧
    cacheKey d.blake3Hex d.numText route.cache r.req = some key ∧
    d.codec.decode blob = .ok cached ∧ FromWrite (writes.take r.seen) key blob (InTime d r)

def TaskSound (d : Deployment) (writes : List KvWrite) (r : Served) : CacheTask d → Prop
  | .due write => ∀ key payload ttl, write = some (key, payload, ttl) →
    DueUnder d r key payload ttl
  | .putting rest =>
    Program.Upholds d.kv.exec (· ⊆ ·) d.kv.Backed (fun _ _ _ => True) writes rest

/-- A value that may be answered with now. -/
def Answerable (d : Deployment) (key : String) (writes : List KvWrite) (store : d.kv.State)
    (found : Except String (Option Bytes)) : Prop :=
  ∀ value, found = .ok (some value) → FromWrite writes key value fun w =>
    d.kv.now store ≤ w.beganAt + d.kv.lifetime w.ttl + d.kv.overstay

def RequestSound (writes : List KvWrite) : Request d → Prop
  | .lookingUp _ _ key rest =>
    Program.Upholds d.kv.exec (· ⊆ ·) d.kv.Backed (Answerable d key) writes rest
  | .served r task => r.seen ≤ writes.length ∧ HitSound d writes r ∧ TaskSound d writes r task

structure Sound (s : CachingGateway d) : Prop where
  backed : d.kv.Backed s.writes s.store
  began : ∀ w ∈ s.writes, w.beganAt ≤ d.kv.now s.store
  made : ∀ w ∈ s.writes, Made s.requests w
  requests : ∀ request ∈ s.requests, RequestSound s.writes request

variable {s t : CachingGateway d}

/-- The answered requests stay on record. -/
def Stays (requests requests' : List (Request d)) : Prop :=
  ∀ (i : ℕ) (r : Served) (task : CacheTask d), requests[i]? = some (.served r task) →
    ∃ task', requests'[i]? = some (.served r task')

theorem Made.stays {requests requests' : List (Request d)} {w : KvWrite} (h : Made requests w)
    (hstays : Stays requests requests') : Made requests' w := by
  obtain ⟨r, task, payload, ttl, hi, hrest⟩ := h
  obtain ⟨task', hi'⟩ := hstays _ r task hi
  exact ⟨r, task', payload, ttl, hi', hrest⟩

theorem stays_set {requests : List (Request d)} {i : ℕ} {request request' : Request d}
    (hi : requests[i]? = some request)
    (hsame : ∀ r task, request = .served r task → ∃ task', request' = .served r task') :
    Stays requests (requests.set i request') := by
  intro j r task hj
  by_cases hij : i = j
  · subst hij
    obtain ⟨task', htask⟩ := hsame r task (Option.some.inj (hi.symm.trans hj))
    exact ⟨task', by rw [List.getElem?_set_self (List.getElem?_eq_some_iff.mp hi).1, htask]⟩
  · exact ⟨task, by rw [List.getElem?_set_ne hij, hj]⟩

theorem RequestSound.later {writes : List KvWrite} {request : Request d}
    (h : RequestSound writes request) (w : KvWrite) : RequestSound (writes ++ [w]) request := by
  have hsub : ∀ later : List KvWrite, writes ++ [w] ⊆ later → writes ⊆ later :=
    fun _ hlater => List.Subset.trans (List.subset_append_left ..) hlater
  cases request with
  | lookingUp env req key rest => exact Program.Upholds.later h hsub
  | served r task =>
    obtain ⟨hseen, hhit, htask⟩ := h
    refine ⟨hseen.trans (by simp), ?_, ?_⟩
    · unfold HitSound
      rw [List.take_append_of_le_length hseen]
      exact hhit
    · cases task with
      | due write => exact htask
      | putting rest => exact Program.Upholds.later htask hsub

/-! ### A lookup -/

theorem cacheLookup_hit {env : ProxyEnv} {policy : Option CachePolicy} {shape : Bool}
    {key : Option String} {cached : CachedResponse}
    (h : (cacheLookup env policy shape key).2 = some cached) :
    ∃ k blob, key = some k ∧ env.kvGet k = .ok (some blob) ∧ env.decodeCached blob = .ok cached := by
  unfold cacheLookup at h
  split at h
  · cases h
  · split at h
    · cases h
    · split at h
      · cases h
      · cases h
      · cases h
      · rename_i k _ _
        split at h
        · rename_i blob hget
          split at h
          · rename_i found hdecode
            cases h
            exact ⟨k, blob, rfl, hget, hdecode⟩
          · cases h
        · cases h
        · cases h

theorem proxyExit_hit {env : ProxyEnv} {req : ProxyRequest} {cached : CachedResponse}
    (h : proxyExit env req = .cacheHit cached) :
    ∃ route key blob, findRoute env.routes req.ns (extractModel req.requestJson) = some route ∧
      cacheKey env.blake3Hex env.numText route.cache req = some key ∧
      env.kvGet key = .ok (some blob) ∧ env.decodeCached blob = .ok cached := by
  unfold proxyExit at h
  split at h
  · cases h
  · rename_i route hroute
    simp only at h
    split at h
    · rename_i found hfound
      cases h
      obtain ⟨key, blob, hkey, hget, hdecode⟩ := cacheLookup_hit hfound
      exact ⟨route, key, blob, hroute, hkey, hget, hdecode⟩
    · split at h
      · cases h
      · split at h
        · cases h
        · cases h

/-- What a request still has to put is what it was to be written with. -/
theorem proxyEvents_put? {env : ProxyEnv} {req : ProxyRequest} {key : String}
    {payload : CachedResponse} {ttl : UInt64}
    (h : (proxyEvents env req).2.findSome? CacheEvent.put? = some (key, payload, ttl)) :
    ∃ route policy response, ShouldWrite env req route policy response ∧
      cacheKey env.blake3Hex env.numText route.cache req = some key ∧
      payload.chunks = upstreamChunks response.body ∧ payload.status = response.status ∧
      ttl = policy.ttl := by
  obtain ⟨e, he, hput⟩ := List.exists_of_findSome?_eq_some h
  have heq : e = .put key payload ttl := by
    cases e with
    | put key' payload' ttl' =>
      cases hput
      rfl
    | get key' => cases hput
    | forward => cases hput
  subst heq
  rcases proxyEvents_writesOrNot env req with
    ⟨route, policy, response, key', payload', calls, hwrite, hkey, hchunks, hstatus, hcalls, hevents⟩ |
    ⟨-, hnone⟩
  · rw [hevents] at he
    rcases List.mem_append.mp he with hcall | hlast
    · cases hcalls _ hcall
    · cases List.mem_singleton.mp hlast
      exact ⟨route, policy, response, hwrite, hkey, hchunks, hstatus, rfl⟩
  · cases hnone _ he

/-- A request that is answered now, with a lookup that may be answered so. -/
theorem serve_sound (hbegan : ∀ w ∈ s.writes, w.beganAt ≤ d.kv.now s.store) (env : ProxyEnv)
    (req : ProxyRequest) {kvGet : String → Except String (Option Bytes)}
    (hget : ∀ key, Answerable d key s.writes s.store (kvGet key)) :
    RequestSound s.writes (s.serve (d.environ env kvGet) req) := by
  refine ⟨Nat.le_refl _, ?_, ?_⟩
  · intro cached hhit
    obtain ⟨route, key, blob, hroute, hkey, hfound, hdecode⟩ := proxyExit_hit hhit
    refine ⟨route, key, blob, hroute, hkey, hdecode, ?_⟩
    obtain ⟨w, hw, hwkey, hvalue, hlive⟩ := hget key blob hfound
    exact ⟨w, by rwa [List.take_length], hwkey, hvalue, hbegan w hw, hlive⟩
  · intro key payload ttl hput
    exact proxyEvents_put? hput

theorem notLookedUp_answerable (key : String) (writes : List KvWrite) (store : d.kv.State) :
    Answerable d key writes store (notLookedUp key) := by
  intro value h
  cases h

theorem resume_sound (hbegan : ∀ w ∈ s.writes, w.beganAt ≤ d.kv.now s.store) (env : ProxyEnv)
    (req : ProxyRequest) {key : String}
    {rest : Fallible d.kv.Statement d.kv.Answer String (Option Bytes)}
    (hrest : Program.Upholds d.kv.exec (· ⊆ ·) d.kv.Backed (Answerable d key) s.writes rest)
    (hreturn : ∀ found, rest = .ret found → Answerable d key s.writes s.store found) :
    RequestSound s.writes (s.resume env req key rest) := by
  cases rest with
  | exec q next => exact hrest
  | ret found =>
    refine serve_sound hbegan env req ?_
    intro k
    by_cases hk : k = key
    · rw [if_pos hk, hk]
      exact hreturn found rfl
    · rw [if_neg hk]
      exact notLookedUp_answerable k _ _

theorem Sound.arrival (h : s.Sound) (env : ProxyEnv) (req : ProxyRequest) :
    RequestSound s.writes (s.arrival env req) := by
  unfold CachingGateway.arrival
  split
  · rename_i key _
    exact d.kv.get_upholds s.writes key
  · exact serve_sound h.began env req fun key => notLookedUp_answerable key _ _

/-! ### What one move does -/

theorem Sound.arrive (h : s.Sound) (env : ProxyEnv) (req : ProxyRequest) :
    Sound { s with requests := s.requests ++ [s.arrival env req] } := by
  refine ⟨h.backed, h.began, ?_, ?_⟩
  · intro w hw
    refine (h.made w hw).stays ?_
    intro i r task hi
    exact ⟨task, by rwa [List.getElem?_append_left (List.getElem?_eq_some_iff.mp hi).1]⟩
  · intro request hrequest
    rcases List.mem_append.mp hrequest with hold | hnew
    · exact h.requests request hold
    · rw [List.mem_singleton.mp hnew]
      exact h.arrival env req

theorem Sound.lookup (h : s.Sound) {i : ℕ} {fate : Fate} {env : ProxyEnv} {req : ProxyRequest}
    {key : String} {q : d.kv.Statement} {next : d.kv.Answer q → _} {a : d.kv.Answer q}
    {store : d.kv.State} (hi : s.requests[i]? = some (.lookingUp env req key (.exec q next)))
    (hexec : d.kv.exec q fate s.store = some (a, store)) :
    Sound { s with
      store
      requests := s.requests.set i (resume { s with store } env req key (next a)) } := by
  obtain ⟨hbacked, hreturn, hrest⟩ := h.requests _ (List.mem_of_getElem? hi) s.writes s.store fate a
    store (List.Subset.refl _) h.backed hexec
  have hbegan : ∀ w ∈ s.writes, w.beganAt ≤ d.kv.now store := by
    rw [d.kv.now_exec hexec]
    exact h.began
  refine ⟨hbacked, hbegan, ?_, ?_⟩
  · intro w hw
    refine (h.made w hw).stays (stays_set hi ?_)
    intro r task hserved
    cases hserved
  · intro request hrequest
    rcases List.mem_or_eq_of_mem_set hrequest with hold | rfl
    · exact h.requests request hold
    · exact resume_sound (s := { s with store }) hbegan env req hrest hreturn

theorem Sound.beginPut (h : s.Sound) {i : ℕ} {fate : Fate} {record : Served} {key : String}
    {payload : CachedResponse} {ttl : UInt64} {blob : Bytes} {q : d.kv.Statement}
    {next : d.kv.Answer q → _} {a : d.kv.Answer q} {store : d.kv.State}
    (hi : s.requests[i]? = some (.served record (.due (some (key, payload, ttl)))))
    (hencode : d.codec.encode payload = .ok blob)
    (hput : d.kv.put key blob ⟨ttl, 0⟩ = .exec q next)
    (hexec : d.kv.exec q fate s.store = some (a, store)) :
    Sound ⟨store, s.requests.set i (.served record (.putting (next a))),
      s.writes ++ [⟨i, key, blob, ⟨ttl, 0⟩, d.kv.now s.store⟩]⟩ := by
  have hlt := (List.getElem?_eq_some_iff.mp hi).1
  obtain ⟨hseen, hhit, hdue⟩ := h.requests _ (List.mem_of_getElem? hi)
  obtain ⟨hbacked, hrest⟩ := d.kv.put_begins hput h.backed hexec i
  have hstays : Stays s.requests (s.requests.set i (.served record (.putting (next a)))) := by
    refine stays_set hi ?_
    intro r task hserved
    cases hserved
    exact ⟨_, rfl⟩
  refine ⟨hbacked, ?_, ?_, ?_⟩
  · intro w hw
    rw [d.kv.now_exec hexec]
    rcases List.mem_append.mp hw with hold | hnew
    · exact h.began w hold
    · rw [List.mem_singleton.mp hnew]
  · intro w hw
    rcases List.mem_append.mp hw with hold | hnew
    · exact (h.made w hold).stays hstays
    · rw [List.mem_singleton.mp hnew]
      exact ⟨record, _, payload, ttl, List.getElem?_set_self hlt, hdue key payload ttl rfl, hencode,
        rfl⟩
  · intro request hrequest
    rcases List.mem_or_eq_of_mem_set hrequest with hold | rfl
    · exact (h.requests request hold).later _
    · have hdone : RequestSound s.writes (.served record (.due none) : Request d) :=
        ⟨hseen, hhit, fun _ _ _ hnone => by cases hnone⟩
      obtain ⟨hseen', hhit', -⟩ := hdone.later ⟨i, key, blob, ⟨ttl, 0⟩, d.kv.now s.store⟩
      exact ⟨hseen', hhit', hrest⟩

theorem Sound.goOn (h : s.Sound) {i : ℕ} {fate : Fate} {record : Served} {q : d.kv.Statement}
    {next : d.kv.Answer q → _} {a : d.kv.Answer q} {store : d.kv.State}
    (hi : s.requests[i]? = some (.served record (.putting (.exec q next))))
    (hexec : d.kv.exec q fate s.store = some (a, store)) :
    Sound { s with
      store
      requests := s.requests.set i (.served record (.putting (next a))) } := by
  obtain ⟨hseen, hhit, htask⟩ := h.requests _ (List.mem_of_getElem? hi)
  obtain ⟨hbacked, -, hrest⟩ := htask s.writes s.store fate a store (List.Subset.refl _) h.backed
    hexec
  refine ⟨hbacked, ?_, ?_, ?_⟩
  · rw [d.kv.now_exec hexec]
    exact h.began
  · intro w hw
    refine (h.made w hw).stays (stays_set hi ?_)
    intro r task hserved
    cases hserved
    exact ⟨_, rfl⟩
  · intro request hrequest
    rcases List.mem_or_eq_of_mem_set hrequest with hold | rfl
    · exact h.requests request hold
    · exact ⟨hseen, hhit, hrest⟩

theorem Sound.internal (h : s.Sound) {e : d.kv.Internal} {store : d.kv.State}
    (hinternal : d.kv.internal s.store e = some store) : Sound { s with store } :=
  ⟨d.kv.backed_internal h.backed hinternal,
    fun w hw => (h.began w hw).trans (d.kv.now_internal hinternal), h.made, h.requests⟩

theorem sound_init : (init d).Sound := by
  refine ⟨d.kv.backed_new, ?_, ?_, ?_⟩
  · intro w hw
    cases hw
  · intro w hw
    cases hw
  · intro request hrequest
    cases hrequest

theorem Sound.step {m : CachingMove d} (h : s.Sound) (hstep : s.step m = some t) : t.Sound := by
  cases m with
  | arrive env req =>
    cases hstep
    exact h.arrive env req
  | turn i fate =>
    obtain ⟨_, _, _, _, _, _, _, hi, hexec, rfl⟩ |
      ⟨_, _, _, _, _, _, _, _, _, hi, hencode, hput, hexec, rfl⟩ |
      ⟨_, _, _, _, _, hi, hexec, rfl⟩ := turn_cases hstep
    · exact h.lookup hi hexec
    · exact h.beginPut hi hencode hput hexec
    · exact h.goOn hi hexec
  | internal e =>
    obtain ⟨store, hinternal, rfl⟩ := Option.map_eq_some_iff.mp hstep
    exact h.internal hinternal

theorem Sound.of_reaches (hr : Reaches CachingGateway.step Always (init d) s) : s.Sound :=
  hr.invariant sound_init fun _ _ _ h _ hstep => h.step hstep

/-- In every run over any of the stores, a cache hit is answered with a response that some request
for the same key got from its upstream, complete and successful. The put of it had begun when
the hit was looked up, and not longer ago than its time to live and what the store keeps beyond
it. -/
theorem hit_replays (hr : Reaches CachingGateway.step Always (init d) s) {i : ℕ} {r : Served}
    {task : CacheTask d} (hi : s.requests[i]? = some (.served r task)) {cached : CachedResponse}
    (hhit : proxyExit r.env r.req = .cacheHit cached) :
    ∃ route key w writer task' route' policy response,
      findRoute r.env.routes r.req.ns (extractModel r.req.requestJson) = some route ∧
      cacheKey d.blake3Hex d.numText route.cache r.req = some key ∧
      w ∈ s.writes.take r.seen ∧ s.requests[w.writer]? = some (.served writer task') ∧
      ShouldWrite writer.env writer.req route' policy response ∧
      cacheKey d.blake3Hex d.numText route'.cache writer.req = some key ∧
      cached.chunks = upstreamChunks response.body ∧ cached.status = response.status ∧
      w.beganAt ≤ r.lookedUpAt ∧
      r.lookedUpAt ≤ w.beganAt + d.kv.lifetime ⟨policy.ttl, 0⟩ + d.kv.overstay := by
  have hsound := Sound.of_reaches hr
  obtain ⟨-, hhits, -⟩ := hsound.requests _ (List.mem_of_getElem? hi)
  obtain ⟨route, key, blob, hroute, hkey, hdecode, w, hw, rfl, rfl, hbegan, hlive⟩ :=
    hhits cached hhit
  obtain ⟨writer, task', payload, ttl, hwriter, hdue, hencode, httl⟩ :=
    hsound.made w (List.mem_of_mem_take hw)
  obtain ⟨route', policy, response, hshould, hkey', hchunks, hstatus, rfl⟩ := hdue
  have hcached : payload = cached :=
    Except.ok.inj ((d.roundTrips.decode_encode hencode).symm.trans hdecode)
  subst hcached
  rw [httl] at hlive
  exact ⟨route, _, w, writer, task', route', policy, response, hroute, hkey, hw, hwriter, hshould,
    hkey', hchunks, hstatus, hbegan, hlive⟩

def sampleDeployment : Deployment where
  kv := sqliteKv
  codec := textCodec
  roundTrips := codecOf_roundTrips _ _
  blake3Hex := sampleHash
  numText := sampleNumber

/-- The same request a second later, while the put of the first is under way, and the row of that
put is then refused. -/
theorem hit_replays_second : ∃ s r task,
    Reaches CachingGateway.step Always (init sampleDeployment) s ∧
    s.requests[1]? = some (.served r task) ∧ proxyExit r.env r.req = .cacheHit textPayload ∧
    s.store.kvCache = (fun _ => none) ∧
    ∃ w writer task', w ∈ s.writes.take r.seen ∧
      s.requests[w.writer]? = some (.served writer task') ∧ w.beganAt ≤ r.lookedUpAt := by
  have harrive : Reaches CachingGateway.step Always (init sampleDeployment) _ :=
    .next (.arrive (missEnv textUpstream) sampleArrival.req) .start trivial rfl
  have hmiss := harrive.move (.turn 0 ⟨true, true, ""⟩) trivial rfl
  have hserved := hmiss.move (.turn 0 ⟨true, true, ""⟩) trivial rfl
  have hbegun := hserved.move (.turn 0 ⟨true, true, ""⟩) trivial rfl
  have hlater := hbegun.move (.internal (.tick 1000)) trivial rfl
  have hagain := hlater.move (.arrive (missEnv textUpstream) sampleArrival.req) trivial rfl
  have hfound := hagain.move (.turn 1 ⟨true, true, ""⟩) trivial rfl
  have hrefused := hfound.move (.turn 0 ⟨false, false, "disk I/O error"⟩) trivial rfl
  obtain ⟨_, _, w, writer, task', _, _, _, -, -, hw, hwriter, -, -, -, -, hbegan, -⟩ :=
    hit_replays hrefused (i := 1) rfl (show _ = ProxyExit.cacheHit textPayload from rfl)
  exact ⟨_, _, _, hrefused, rfl, rfl, rfl, w, writer, task', hw, hwriter, hbegan⟩

end CachingGateway

end AiGateway.Api
