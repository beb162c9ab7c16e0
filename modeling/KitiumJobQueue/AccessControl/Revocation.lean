import KitiumJobQueue.AccessControl.Manager
import KitiumJobQueue.Foundations.Systems

/-!
# Revocation under concurrency

Any number of calls for one principal `p`, interleaved at their `await`s. A call is suspended with
the locals it goes on with (`Pending`) until Redis has executed its command (`Executed`) and the
reply is delivered; commands are executed, and replies delivered, in the order of issue.

To say which entry a revocation deleted, commands that store an entry are numbered: `stamps` gives
the number of the `SET` that last stored a key, `stamp` the next number, and a completed revocation
keeps the number its `DEL` found. An entry is revoked if it lay under the revoked key with a
smaller number (`Revocation.Covers`). These numbers, `revoked` and `finished` are records of the
run that the code does not have.

A revocation forgets the cache when its `DEL` is answered, but a `getPrincipalAccess` that has read
the entry before fills the cache again when it ends. `safe_of_run` says that nothing else goes
wrong.
-/

namespace KitiumJobQueue.AccessControl.Revocation

open Redis

/-! ## Calls, commands and replies -/

/-- A call for the principal. -/
inductive Request
  | checkAccess (queueName : String) (permission : Permission) (context : Option Json)
  | getPrincipalAccess
  | grantAccess (ace : AccessControlEntry)
  | revokeAccess (queuePattern : String)

/-- A revocation whose `DEL` was executed when `stamp` was the next number of a `SET`. -/
structure Revoked where
  queuePattern : String
  stamp : ℕ
  deriving DecidableEq

/-- An entry as it was read: from which key, and stored by which `SET`. -/
structure ReadEntry where
  key : String
  ace : AccessControlEntry
  stamp : ℕ

/-- A `checkAccess` under way, with the revocations completed when it started. -/
structure Check where
  queueName : String
  permission : Permission
  context : Option Json
  known : List Revoked

/-- A call waiting for Redis, with the command it waits for and its locals. Entries are read for a
`checkAccess` or for their own sake. -/
inductive Pending
  | keys (check : Option Check)
  | get (check : Option Check) (key : String) (todo : List String) (aces : List ReadEntry)
  | set (ace : AccessControlEntry)
  | del (queuePattern : String)

/-- A call whose command has been executed, with the reply. -/
inductive Executed
  | keys (check : Option Check) (reply : List String)
  | get (check : Option Check) (todo : List String) (aces : List ReadEntry)
    (reply : Option ReadEntry)
  | set
  | del (revoked : Revoked)

/-- A finished `checkAccess`: the revocations completed when it started, and the entries that allow
it. It answers `true` if there are any. -/
structure Verdict where
  known : List Revoked
  grounds : List ReadEntry

/-- The entries a waiting call has read so far. -/
def Pending.aces : Pending → List ReadEntry
  | .get _ _ _ aces => aces
  | .keys _ | .set _ | .del _ => []

/-- The check a waiting call is part of. -/
def Pending.checks : Pending → List Check
  | .keys check | .get check _ _ _ => check.toList
  | .set _ | .del _ => []

/-- The check a call with a reply is part of. -/
def Executed.checks : Executed → List Check
  | .keys check _ | .get check _ _ _ => check.toList
  | .set | .del _ => []

/-- The entries a call with a reply has read before. -/
def Executed.aces : Executed → List ReadEntry
  | .get _ _ aces _ => aces
  | .keys _ _ | .set | .del _ => []

/-- The entry in a reply. -/
def Executed.data : Executed → List ReadEntry
  | .get _ _ _ reply => reply.toList
  | .keys _ _ | .set | .del _ => []

/-- The revocation a reply completes. -/
def Executed.revoked : Executed → List Revoked
  | .del r => [r]
  | .keys _ _ | .get _ _ _ _ | .set => []

/-- Redis, the connection, the cache of the principal, and the record of the run. -/
structure World where
  redis : Store AccessControlEntry
  stamps : String → ℕ := fun _ => 0
  stamp : ℕ := 1
  requests : List Pending := []
  replies : List Executed := []
  aclCache : Option (List ReadEntry) := none
  revoked : List Revoked := []
  finished : List Verdict := []

/-- What can happen: a call is made, Redis executes the next command, the next reply arrives. -/
inductive Event
  | start (request : Request) (now : ℕ)
  | execute (now : ℕ)
  | deliver (now : ℕ)

section Steps

variable (keyPrefix p : String) (scan : Scan AccessControlEntry) (localHour : ℕ → ℕ)

/-- Issue a command. -/
def World.send (w : World) (call : Pending) : World := { w with requests := w.requests ++ [call] }

/-- The end of a check: it is allowed by the entries that pass `isAceAllowed`. -/
def World.conclude (w : World) (now : ℕ) (check : Check) (aces : List ReadEntry) : World :=
  { w with finished :=
      ⟨check.known, aces.filter fun e =>
        isAceAllowed now (localHour now) e.ace check.queueName check.permission check.context⟩ ::
      w.finished }

/-- `getPrincipalAccess` with the keys still to read: read the next one, or fill the cache and go
back to the check, if any. -/
def World.readOn (w : World) (now : ℕ) (check : Option Check) (todo : List String)
    (aces : List ReadEntry) : World :=
  match todo, check with
  | key :: todo, check => w.send (.get check key todo aces)
  | [], none => { w with aclCache := some aces }
  | [], some check => { w with aclCache := some aces }.conclude localHour now check aces

/-- A call runs to its first `await`, or to its end. -/
def World.start (w : World) (now : ℕ) : Request → World
  | .checkAccess queueName permission context =>
    let check : Check := ⟨queueName, permission, context, w.revoked⟩
    match w.aclCache with
    | some aces => w.conclude localHour now check aces
    | none => w.send (.keys (some check))
  | .getPrincipalAccess =>
    match w.aclCache with
    | some _ => w
    | none => w.send (.keys none)
  | .grantAccess ace => w.send (.set ace)
  | .revokeAccess queuePattern => w.send (.del queuePattern)

/-- Append a reply. -/
def World.answer (w : World) (requests : List Pending) (reply : Executed) : World :=
  { w with requests := requests, replies := w.replies ++ [reply] }

/-- Redis executes the first command. -/
def World.execute (w : World) (now : ℕ) : Option World :=
  match w.requests with
  | [] => none
  | .keys check :: rest =>
    some (w.answer rest (.keys check (w.redis.keys scan now (accessPattern keyPrefix p))))
  | .get check key todo aces :: rest =>
    some (w.answer rest (.get check todo aces
      ((w.redis.get now key).map fun ace => ⟨key, ace, w.stamps key⟩)))
  | .set ace :: rest =>
    let key := buildACEKey keyPrefix p ace.queuePattern
    some ({ w with
      redis := w.redis.set key ace.parsed (some (now + aceLifetime))
      stamps := Function.update w.stamps key w.stamp
      stamp := w.stamp + 1 }.answer rest .set)
  | .del queuePattern :: rest =>
    some ({ w with redis := w.redis.del (buildACEKey keyPrefix p queuePattern) }.answer rest
      (.del ⟨queuePattern, w.stamp⟩))

/-- The first reply arrives and its call goes on. -/
def World.deliver (w : World) (now : ℕ) : Option World :=
  match w.replies with
  | [] => none
  | .keys check reply :: rest =>
    some ({ w with replies := rest }.readOn localHour now check reply [])
  | .get check todo aces reply :: rest =>
    some ({ w with replies := rest }.readOn localHour now check todo (aces ++ reply.toList))
  | .set :: rest => some { w with replies := rest, aclCache := none }
  | .del r :: rest =>
    some { w with replies := rest, aclCache := none, revoked := r :: w.revoked }

/-- One manager under any interleaving of calls for the principal `p`. -/
def system : System World Event where
  step w e :=
    match e with
    | .start (.grantAccess ace) now =>
      if ace.principalId = p then some (w.start localHour now (.grantAccess ace)) else none
    | .start request now => some (w.start localHour now request)
    | .execute now => w.execute keyPrefix p scan now
    | .deliver now => w.deliver localHour now

/-! ## Safety -/

variable {keyPrefix p scan localHour}

/-- The entry lay under the revoked key when the revocation deleted it, or had been replaced or
deleted there before. -/
def Revoked.Covers (keyPrefix p : String) (r : Revoked) (e : ReadEntry) : Prop :=
  e.key = buildACEKey keyPrefix p r.queuePattern ∧ e.stamp < r.stamp

instance (r : Revoked) (e : ReadEntry) : Decidable (r.Covers keyPrefix p e) :=
  inferInstanceAs (Decidable (_ ∧ _))

/-- None of the entries is revoked by one of the revocations. -/
def Clean (keyPrefix p : String) (rs : List Revoked) (es : List ReadEntry) : Prop :=
  ∀ r ∈ rs, ∀ e ∈ es, ¬ r.Covers keyPrefix p e

instance (rs : List Revoked) (es : List ReadEntry) : Decidable (Clean keyPrefix p rs es) :=
  inferInstanceAs (Decidable (∀ r ∈ rs, ∀ e ∈ es, _))

/-- No entry that a completed revocation deleted is in the cache, and none of them allows a check
that started after the revocation. -/
structure Safe (keyPrefix p : String) (w : World) : Prop where
  cache : Clean keyPrefix p w.revoked (w.aclCache.getD [])
  finished : ∀ v ∈ w.finished, Clean keyPrefix p v.known v.grounds

/-- The entries that suspended calls have read. -/
def World.held (w : World) : List ReadEntry :=
  w.requests.flatMap Pending.aces ++ w.replies.flatMap Executed.aces

/-- The event does not complete a revocation while a suspended `getPrincipalAccess` has already read
an entry that the revocation deleted. -/
def NotHeld (keyPrefix p : String) (w : World) : Event → Prop
  | .deliver _ => Clean keyPrefix p ((w.replies.head?.map Executed.revoked).getD []) w.held
  | .start _ _ | .execute _ => True

instance (w : World) (e : Event) : Decidable (NotHeld keyPrefix p w e) :=
  match e with
  | .deliver _ => inferInstanceAs (Decidable (Clean _ _ _ _))
  | .start _ _ => .isTrue trivial
  | .execute _ => .isTrue trivial

theorem Clean.nil_left (es : List ReadEntry) : Clean keyPrefix p [] es :=
  fun _ h => absurd h List.not_mem_nil

theorem Clean.nil_right (rs : List Revoked) : Clean keyPrefix p rs [] :=
  fun _ _ _ h => absurd h List.not_mem_nil

theorem Clean.mono {rs rs' : List Revoked} {es es' : List ReadEntry}
    (h : Clean keyPrefix p rs es) (hr : rs' ⊆ rs) (he : es' ⊆ es) : Clean keyPrefix p rs' es' :=
  fun r hr' e he' => h r (hr hr') e (he he')

theorem clean_append_right {rs : List Revoked} {es es' : List ReadEntry} :
    Clean keyPrefix p rs (es ++ es') ↔ Clean keyPrefix p rs es ∧ Clean keyPrefix p rs es' := by
  refine ⟨fun h => ⟨h.mono (fun _ => id) (List.subset_append_left _ _),
    h.mono (fun _ => id) (List.subset_append_right _ _)⟩, fun h r hr e he => ?_⟩
  rcases List.mem_append.mp he with he | he
  · exact h.1 r hr e he
  · exact h.2 r hr e he

theorem clean_cons_left {r : Revoked} {rs : List Revoked} {es : List ReadEntry} :
    Clean keyPrefix p (r :: rs) es ↔ Clean keyPrefix p [r] es ∧ Clean keyPrefix p rs es := by
  unfold Clean
  rw [List.forall_mem_cons, List.forall_mem_singleton]

/-! ## The invariant -/

/-- The revocations Redis has executed, completed or about to be. -/
def World.deleted (w : World) : List Revoked := w.revoked ++ w.replies.flatMap Executed.revoked

/-- The checks under way. -/
def World.checks (w : World) : List Check :=
  w.requests.flatMap Pending.checks ++ w.replies.flatMap Executed.checks

/-- What holds in every run whose steps meet `NotHeld`. -/
structure Inv (keyPrefix p : String) (w : World) : Prop where
  safe : Safe keyPrefix p w
  /-- revocations of the past have smaller numbers -/
  past : ∀ r ∈ w.deleted, r.stamp ≤ w.stamp
  /-- what lies under a revoked key was stored after the revocation -/
  gone : ∀ r ∈ w.deleted, (w.redis.lookup (buildACEKey keyPrefix p r.queuePattern)).isSome →
    r.stamp ≤ w.stamps (buildACEKey keyPrefix p r.queuePattern)
  /-- a reply read after a revocation does not hold what it deleted -/
  order : w.replies.Pairwise fun a b => Clean keyPrefix p a.revoked b.data
  arriving : Clean keyPrefix p w.revoked (w.replies.flatMap Executed.data)
  held : Clean keyPrefix p w.revoked w.held
  known : ∀ c ∈ w.checks, c.known ⊆ w.revoked

theorem inv_init (s : Store AccessControlEntry) : Inv keyPrefix p { redis := s } where
  safe := ⟨.nil_left _, fun _ h => absurd h List.not_mem_nil⟩
  past _ h := absurd h List.not_mem_nil
  gone _ h := absurd h List.not_mem_nil
  order := .nil
  arriving := .nil_left _
  held := .nil_left _
  known _ h := absurd h List.not_mem_nil

/-- A command is issued. -/
theorem Inv.send {w : World} (h : Inv keyPrefix p w) {call : Pending}
    (haces : Clean keyPrefix p w.revoked call.aces)
    (hknown : ∀ c ∈ call.checks, c.known ⊆ w.revoked) : Inv keyPrefix p (w.send call) where
  safe := ⟨h.safe.cache, h.safe.finished⟩
  past := h.past
  gone := h.gone
  order := h.order
  arriving := h.arriving
  held := by
    have hsub : (w.send call).held ⊆ w.held ++ call.aces := by
      intro e
      simp only [World.held, World.send, List.flatMap_append, List.flatMap_singleton,
        List.mem_append]
      tauto
    exact (clean_append_right.mpr ⟨h.held, haces⟩).mono (fun _ => id) hsub
  known c hc := by
    simp only [World.checks, World.send, List.flatMap_append, List.flatMap_singleton,
      List.mem_append] at hc
    rcases hc with (hc | hc) | hc
    · exact h.known c (List.mem_append_left _ hc)
    · exact hknown c hc
    · exact h.known c (List.mem_append_right _ hc)

/-- A check ends. -/
theorem Inv.conclude {w : World} (h : Inv keyPrefix p w) (now : ℕ) {check : Check}
    {aces : List ReadEntry} (haces : Clean keyPrefix p check.known aces) :
    Inv keyPrefix p (w.conclude localHour now check aces) where
  safe := by
    refine ⟨h.safe.cache, fun v hv => ?_⟩
    rcases List.mem_cons.mp hv with rfl | hv
    · exact haces.mono (fun _ => id) (List.filter_subset_self _)
    · exact h.safe.finished v hv
  past := h.past
  gone := h.gone
  order := h.order
  arriving := h.arriving
  held := h.held
  known := h.known

/-- The cache is forgotten. -/
theorem Inv.cache {w : World} (h : Inv keyPrefix p w) {cached : Option (List ReadEntry)}
    (hc : Clean keyPrefix p w.revoked (cached.getD [])) :
    Inv keyPrefix p { w with aclCache := cached } where
  safe := ⟨hc, h.safe.finished⟩
  past := h.past
  gone := h.gone
  order := h.order
  arriving := h.arriving
  held := h.held
  known := h.known

/-- Reading goes on with entries none of which is revoked. -/
theorem Inv.readOn {w : World} (h : Inv keyPrefix p w) (now : ℕ) {check : Option Check}
    (hknown : ∀ c ∈ check.toList, c.known ⊆ w.revoked) (todo : List String)
    {aces : List ReadEntry} (haces : Clean keyPrefix p w.revoked aces) :
    Inv keyPrefix p (w.readOn localHour now check todo aces) := by
  cases todo with
  | cons key todo => exact h.send haces hknown
  | nil =>
    have hcache : Inv keyPrefix p { w with aclCache := some aces } := h.cache haces
    cases check with
    | none => exact hcache
    | some check => exact hcache.conclude now (haces.mono (hknown check (by simp)) fun _ => id)

/-- A command is executed: its reply holds no entry deleted before, and a revocation among the
replies has just been made. -/
theorem Inv.answer {w : World} (h : Inv keyPrefix p w) {call : Pending} {rest : List Pending}
    (hreq : w.requests = call :: rest) {reply : Executed} (haces : reply.aces = call.aces)
    (hchecks : reply.checks = call.checks) (hdata : Clean keyPrefix p w.deleted reply.data)
    (hrevoked : ∀ r ∈ reply.revoked, r.stamp ≤ w.stamp ∧
      w.redis.lookup (buildACEKey keyPrefix p r.queuePattern) = none) :
    Inv keyPrefix p (w.answer rest reply) := by
  have hdeleted : ∀ r ∈ (w.answer rest reply).deleted, r ∈ w.deleted ∨ r ∈ reply.revoked := by
    intro r hr
    simp only [World.deleted, World.answer, List.flatMap_append, List.flatMap_singleton,
      ← List.append_assoc, List.mem_append] at hr ⊢
    exact hr
  refine ⟨⟨h.safe.cache, h.safe.finished⟩, ?_, ?_, ?_, ?_, ?_, ?_⟩
  · intro r hr
    rcases hdeleted r hr with hr | hr
    · exact h.past r hr
    · exact (hrevoked r hr).1
  · intro r hr hlookup
    rcases hdeleted r hr with hr | hr
    · exact h.gone r hr hlookup
    · have hnone := (hrevoked r hr).2
      rw [show (w.answer rest reply).redis = w.redis from rfl, hnone] at hlookup
      cases hlookup
  · refine List.pairwise_append.mpr ⟨h.order, List.pairwise_singleton _ _, fun a ha b hb => ?_⟩
    obtain rfl := List.mem_singleton.mp hb
    refine hdata.mono (fun r hr => List.mem_append_right _ ?_) fun _ => id
    exact List.mem_flatMap.mpr ⟨a, ha, hr⟩
  · show Clean keyPrefix p w.revoked ((w.replies ++ [reply]).flatMap Executed.data)
    rw [List.flatMap_append, List.flatMap_singleton]
    exact clean_append_right.mpr
      ⟨h.arriving, hdata.mono (List.subset_append_left _ _) fun _ => id⟩
  · refine h.held.mono (fun _ => id) fun e he => ?_
    simp only [World.held, World.answer, hreq, List.flatMap_append, List.flatMap_cons, haces,
      List.mem_append] at he ⊢
    tauto
  · intro c hc
    refine h.known c ?_
    simp only [World.checks, World.answer, hreq, List.flatMap_append, List.flatMap_cons, hchecks,
      List.mem_append] at hc ⊢
    tauto

/-- An entry is stored under the next number. -/
theorem Inv.store {w : World} (h : Inv keyPrefix p w) (key : String) (ace : AccessControlEntry)
    (expiresAt : Option ℕ) :
    Inv keyPrefix p { w with
      redis := w.redis.set key ace expiresAt
      stamps := Function.update w.stamps key w.stamp
      stamp := w.stamp + 1 } where
  safe := ⟨h.safe.cache, h.safe.finished⟩
  past r hr := Nat.le_succ_of_le (h.past r hr)
  gone r hr hlookup := by
    show r.stamp ≤ Function.update w.stamps key w.stamp _
    by_cases hk : buildACEKey keyPrefix p r.queuePattern = key
    · rw [hk, Function.update_self]
      exact h.past r hr
    · rw [Function.update_of_ne hk]
      rw [Store.lookup_set, if_neg hk] at hlookup
      exact h.gone r hr hlookup
  order := h.order
  arriving := h.arriving
  held := h.held
  known := h.known

/-- A key is deleted. -/
theorem Inv.delete {w : World} (h : Inv keyPrefix p w) (key : String) :
    Inv keyPrefix p { w with redis := w.redis.del key } where
  safe := ⟨h.safe.cache, h.safe.finished⟩
  past := h.past
  gone r hr hlookup := by
    rw [Store.lookup_del] at hlookup
    split at hlookup
    · cases hlookup
    · exact h.gone r hr hlookup
  order := h.order
  arriving := h.arriving
  held := h.held
  known := h.known

/-- What `GET` reads was stored after every revocation of its key. -/
theorem Inv.clean_get {w : World} (h : Inv keyPrefix p w) (now : ℕ) (key : String) :
    Clean keyPrefix p w.deleted
      ((w.redis.get now key).map fun ace =>
        ⟨key, ace, w.stamps key⟩ : Option ReadEntry).toList := by
  intro r hr e he hcovers
  rw [Option.mem_toList, Option.map_eq_some_iff] at he
  obtain ⟨ace, hget, rfl⟩ := he
  obtain ⟨hkey, hlt⟩ := hcovers
  have hlookup : (w.redis.lookup key).isSome := by
    unfold Store.get at hget
    cases hl : w.redis.lookup key with
    | none => simp [hl] at hget
    | some e => rfl
  have hkey : key = buildACEKey keyPrefix p r.queuePattern := hkey
  have hlt : w.stamps key < r.stamp := hlt
  rw [hkey] at hlookup hlt
  have := h.gone r hr hlookup
  omega

/-- Redis executes a command. -/
theorem Inv.execute {w w' : World} (h : Inv keyPrefix p w) {now : ℕ}
    (hw : w.execute keyPrefix p scan now = some w') : Inv keyPrefix p w' := by
  unfold World.execute at hw
  cases hreq : w.requests with
  | nil => simp [hreq] at hw
  | cons call rest =>
    rw [hreq] at hw
    have hnone : ∀ r ∈ ([] : List Revoked), r.stamp ≤ w.stamp ∧
        w.redis.lookup (buildACEKey keyPrefix p r.queuePattern) = none :=
      fun _ hr => absurd hr List.not_mem_nil
    cases call with
    | keys check =>
      obtain rfl := Option.some.inj hw
      exact h.answer hreq rfl rfl (.nil_right _) hnone
    | get check key todo aces =>
      obtain rfl := Option.some.inj hw
      exact h.answer hreq rfl rfl (h.clean_get now key) hnone
    | set ace =>
      obtain rfl := Option.some.inj hw
      refine (h.store _ _ _).answer hreq rfl rfl (.nil_right _) ?_
      exact fun _ hr => absurd hr List.not_mem_nil
    | del queuePattern =>
      obtain rfl := Option.some.inj hw
      refine (h.delete _).answer hreq rfl rfl (.nil_right _) fun r hr => ?_
      obtain rfl := List.mem_singleton.mp hr
      refine ⟨le_refl _, ?_⟩
      show (w.redis.del _).lookup _ = none
      rw [Store.lookup_del, if_pos rfl]

/-- A reply that completes no revocation is taken off the connection. -/
theorem Inv.tail {w : World} (h : Inv keyPrefix p w) {reply : Executed} {rest : List Executed}
    (hreplies : w.replies = reply :: rest) :
    Inv keyPrefix p { w with replies := rest } where
  safe := ⟨h.safe.cache, h.safe.finished⟩
  past r hr := h.past r (by
    simp only [World.deleted, hreplies, List.flatMap_cons, List.mem_append] at hr ⊢
    tauto)
  gone r hr := h.gone r (by
    simp only [World.deleted, hreplies, List.flatMap_cons, List.mem_append] at hr ⊢
    tauto)
  order := (List.pairwise_cons.mp (hreplies ▸ h.order)).2
  arriving := h.arriving.mono (fun _ => id) (by
    rw [hreplies, List.flatMap_cons]
    exact List.subset_append_right _ _)
  held := h.held.mono (fun _ => id) fun e he => by
    simp only [World.held, hreplies, List.flatMap_cons, List.mem_append] at he ⊢
    tauto
  known c hc := h.known c (by
    simp only [World.checks, hreplies, List.flatMap_cons, List.mem_append] at hc ⊢
    tauto)

/-- A revocation completes: every reply behind its own was read after it, and no suspended call has
read what it deleted. -/
theorem Inv.revoke {w : World} (h : Inv keyPrefix p w) {r : Revoked} {rest : List Executed}
    (hreplies : w.replies = .del r :: rest) (hheld : Clean keyPrefix p [r] w.held) :
    Inv keyPrefix p { w with replies := rest, aclCache := none, revoked := r :: w.revoked } := by
  have htail := h.tail hreplies
  have horder := (List.pairwise_cons.mp (hreplies ▸ h.order)).1
  have hsub : ({ w with replies := rest } : World).held ⊆ w.held := by
    intro e he
    simp only [World.held, hreplies, List.flatMap_cons, List.mem_append] at he ⊢
    tauto
  have hdeleted : ∀ q, q ∈ r :: w.revoked ++ rest.flatMap Executed.revoked → q ∈ w.deleted := by
    intro q hq
    simp only [World.deleted, hreplies, List.flatMap_cons, Executed.revoked, List.mem_append,
      List.mem_cons, List.not_mem_nil, or_false] at hq ⊢
    tauto
  refine ⟨⟨.nil_right _, h.safe.finished⟩, fun q hq => h.past q (hdeleted q hq),
    fun q hq => h.gone q (hdeleted q hq), htail.order, ?_, ?_, ?_⟩
  · refine clean_cons_left.mpr ⟨?_, htail.arriving⟩
    intro q hq e he
    obtain ⟨reply, hreply, he⟩ := List.mem_flatMap.mp he
    exact horder reply hreply q hq e he
  · exact clean_cons_left.mpr ⟨hheld.mono (fun _ => id) hsub, htail.held⟩
  · exact fun c hc => List.subset_cons_of_subset r (htail.known c hc)

/-- A reply arrives. -/
theorem Inv.deliver {w w' : World} (h : Inv keyPrefix p w) {now : ℕ}
    (hheld : NotHeld keyPrefix p w (.deliver now)) (hw : w.deliver localHour now = some w') :
    Inv keyPrefix p w' := by
  unfold World.deliver at hw
  cases hreplies : w.replies with
  | nil => simp [hreplies] at hw
  | cons reply rest =>
    rw [hreplies] at hw
    have htail := h.tail hreplies
    have hknown : ∀ c ∈ reply.checks, c.known ⊆ w.revoked := fun c hc => h.known c (by
      simp only [World.checks, hreplies, List.flatMap_cons, List.mem_append]
      tauto)
    cases reply with
    | keys check reply =>
      obtain rfl := Option.some.inj hw
      exact htail.readOn now hknown reply (.nil_right _)
    | get check todo aces reply =>
      obtain rfl := Option.some.inj hw
      refine htail.readOn now hknown todo (clean_append_right.mpr ⟨?_, ?_⟩)
      · refine h.held.mono (fun _ => id) fun e he => ?_
        simp only [World.held, hreplies, List.flatMap_cons, List.mem_append]
        exact .inr (.inl he)
      · refine h.arriving.mono (fun _ => id) ?_
        rw [hreplies, List.flatMap_cons]
        exact List.subset_append_left _ _
    | set =>
      obtain rfl := Option.some.inj hw
      exact htail.cache (.nil_right _)
    | del r =>
      obtain rfl := Option.some.inj hw
      refine h.revoke hreplies ?_
      have hheld : Clean keyPrefix p ((w.replies.head?.map Executed.revoked).getD []) w.held :=
        hheld
      rwa [hreplies] at hheld

/-- A call is made. -/
theorem Inv.start {w : World} (h : Inv keyPrefix p w) (now : ℕ) (request : Request) :
    Inv keyPrefix p (w.start localHour now request) := by
  cases request with
  | checkAccess queueName permission context =>
    cases hc : w.aclCache with
    | some aces =>
      have hcache := h.safe.cache
      rw [hc] at hcache
      simp only [World.start, hc]
      exact h.conclude now hcache
    | none =>
      simp only [World.start, hc]
      refine h.send (.nil_right _) fun c hmem => ?_
      obtain rfl := List.mem_singleton.mp hmem
      exact fun _ => id
  | getPrincipalAccess =>
    cases hc : w.aclCache with
    | some aces => simpa only [World.start, hc] using h
    | none =>
      simp only [World.start, hc]
      exact h.send (.nil_right _) fun c hmem => absurd hmem List.not_mem_nil
  | grantAccess ace =>
    exact h.send (.nil_right _) fun c hmem => absurd hmem List.not_mem_nil
  | revokeAccess queuePattern =>
    exact h.send (.nil_right _) fun c hmem => absurd hmem List.not_mem_nil

/-- One step, whatever it is, keeps the invariant. -/
theorem inv_step {w w' : World} {e : Event} (h : Inv keyPrefix p w)
    (hheld : NotHeld keyPrefix p w e)
    (hw : (system keyPrefix p scan localHour).step w e = some w') : Inv keyPrefix p w' := by
  cases e with
  | start request now =>
    have hstart : w' = w.start localHour now request := by
      cases request with
      | grantAccess ace =>
        simp only [system, Option.ite_none_right_eq_some] at hw
        exact (Option.some.inj hw.2).symm
      | checkAccess | getPrincipalAccess | revokeAccess => exact (Option.some.inj hw).symm
    rw [hstart]
    exact h.start now request
  | execute now => exact h.execute hw
  | deliver now => exact h.deliver hheld hw

/-- **Revocation holds unless a reader is overtaken.** In every interleaving in which no revocation
completes while a suspended `getPrincipalAccess` has already read an entry it deleted, the cache
never holds a revoked entry, and no later check is allowed by one. -/
theorem safe_of_run {s : Store AccessControlEntry} {es : List Event} {w : World}
    (hheld : (system keyPrefix p scan localHour).StepsMeet (NotHeld keyPrefix p) { redis := s } es)
    (hw : (system keyPrefix p scan localHour).runFrom { redis := s } es = some w) :
    Safe keyPrefix p w :=
  (System.invariant_of_stepsMeet (fun _ _ _ h hc hs => inv_step h hc hs) (inv_init s) hheld hw).safe

end Steps

/-! ## An overtaken reader -/

/-- Two entries of the principal `p`. -/
def twoEntries : Store AccessControlEntry :=
  (Store.empty.set (buildACEKey "acl" "p" "a") (grantAll "p" "a") none).set
    (buildACEKey "acl" "p" "b") (grantAll "p" "b") none

/-- A revocation with no reader under way, then a check. -/
def undisturbed : List Event :=
  [.start (.revokeAccess "b") 0, .execute 0, .deliver 0,
    .start (.checkAccess "b" .canAddJob none) 0, .execute 0, .deliver 0, .execute 0, .deliver 0]

theorem safe_of_undisturbed :
    ∃ w, (system "acl" "p" .stored utcHour).runFrom { redis := twoEntries } undisturbed = some w ∧
      Safe "acl" "p" w := by
  obtain ⟨w, hw⟩ := Option.isSome_iff_exists.mp
    (show ((system "acl" "p" .stored utcHour).runFrom { redis := twoEntries } undisturbed).isSome
      from by decide)
  exact ⟨w, hw, safe_of_run (by decide) hw⟩

/-- A reader has read the entry for `b` when `b` is revoked, and has still to read the one for `a`:
its second `GET` is issued after the `DEL`, and it fills the cache last. -/
def overtaken : List Event :=
  [.start .getPrincipalAccess 0, .execute 0, .deliver 0, .execute 0,
    .start (.revokeAccess "b") 0, .deliver 0, .execute 0, .execute 0, .deliver 0, .deliver 0,
    .start (.checkAccess "b" .canAddJob none) 0]

/-- **A revoked entry survives in the cache** and allows a check made after the revocation, in a run
without any grant. -/
theorem not_safe_of_overtaken :
    (∀ ace now, Event.start (.grantAccess ace) now ∉ overtaken) ∧
      ∃ w, (system "acl" "p" .stored utcHour).runFrom { redis := twoEntries } overtaken = some w ∧
        ¬ Safe "acl" "p" w ∧
        ∃ v ∈ w.finished, 0 < v.grounds.length ∧
          ∀ e ∈ v.grounds, ∃ r ∈ v.known, r.Covers "acl" "p" e := by
  refine ⟨fun ace now h => by simp [overtaken] at h, ?_⟩
  obtain ⟨w, hw, hv⟩ := Option.map_eq_some_iff.mp
    (show ((system "acl" "p" .stored utcHour).runFrom { redis := twoEntries } overtaken).map
      (fun w => decide (∃ v ∈ w.finished, 0 < v.grounds.length ∧
        ∀ e ∈ v.grounds, ∃ r ∈ v.known, r.Covers "acl" "p" e)) = some true from by decide)
  obtain ⟨v, hv, hpos, hgrounds⟩ := of_decide_eq_true hv
  refine ⟨w, hw, fun hsafe => ?_, v, hv, hpos, hgrounds⟩
  obtain ⟨e, he⟩ := List.exists_mem_of_length_pos hpos
  obtain ⟨r, hr, hcovers⟩ := hgrounds e he
  exact hsafe.finished v hv r hr e he hcovers

end KitiumJobQueue.AccessControl.Revocation
