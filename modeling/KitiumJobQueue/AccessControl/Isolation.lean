import KitiumJobQueue.AccessControl.Manager
import Mathlib.Data.List.Perm.Basic

/-!
# Isolation of principals

Two runs of one history of calls, with and without the calls made for a principal `p'`: do the
answers given to another principal `p` stay the same? They do exactly when no key the manager can
build for `p'` is matched by the pattern with which it looks up the entries of `p`
(`isolated_iff`). For ids and a prefix without glob letters the bad pairs are those of which one is
the other followed by a colon and more (`exists_keyMatches_iff`).
-/

namespace KitiumJobQueue.AccessControl

open Effects Redis

/-! ## Histories -/

/-- A call on the manager. -/
inductive Op
  | grantAccess (ace : AccessControlEntry)
  | revokeAccess (principalId queuePattern : String)
  | checkAccess (principalId queueName : String) (permission : Permission) (context : Option Json)

/-- The principal a call is about. -/
def Op.principalId : Op → String
  | .grantAccess ace => ace.principalId
  | .revokeAccess principalId _ => principalId
  | .checkAccess principalId _ _ _ => principalId

/-- A call, the time at which it is made, and what becomes of its Redis commands. -/
structure Call (ε : Type) where
  op : Op
  now : ℕ
  answers : ℕ → Answer ε

/-- The manager as a call finds it, with none of its commands sent. -/
def Manager.begin (m : Manager) : Manager := { m with redis := { m.redis with calls := 0 } }

section Runs

variable {ε : Type} (keyPrefix : String) (scan : Scan AccessControlEntry) (localHour : ℕ → ℕ)

/-- Make a call; a check has an answer. -/
def Call.perform (c : Call ε) : Async ε Manager (Option Bool) :=
  match c.op with
  | .grantAccess ace => do
    grantAccess keyPrefix c.answers c.now ace
    pure none
  | .revokeAccess principalId queuePattern => do
    revokeAccess keyPrefix c.answers principalId queuePattern
    pure none
  | .checkAccess principalId queueName permission context => do
    let allowed ← checkAccess keyPrefix scan c.answers c.now localHour principalId queueName
      permission context
    pure (some allowed)

/-- The answer a call gives to the principal `p`. -/
def Call.answerTo (p : String) (c : Call ε) (r : Except ε (Option Bool)) : List Bool :=
  if c.op.principalId = p then
    match r with
    | .ok (some allowed) => [allowed]
    | _ => []
  else []

/-- All the answers given to the principal `p` in a history. -/
def answersTo (p : String) : List (Call ε) → Manager → List Bool
  | [], _ => []
  | c :: history, m =>
    let r := (c.perform keyPrefix scan localHour).run m.begin
    c.answerTo p r.1 ++ answersTo p history r.2

/-- Leaving out the calls made for `p'` changes no answer given to `p`. -/
def Isolated (ε : Type) (p p' : String) : Prop :=
  ∀ (m : Manager) (history : List (Call ε)),
    answersTo keyPrefix scan localHour p history m =
      answersTo keyPrefix scan localHour p
        (history.filter fun c => c.op.principalId ≠ p') m

/-! ## What a call leaves alone -/

theorem Call.answerTo_map_none (p : String) (c : Call ε) (r : Except ε Unit) :
    c.answerTo p (r.map fun _ => none) = [] := by
  unfold Call.answerTo
  cases r <;> exact ite_self _

/-- A check changes nothing but the cached entries of its own principal. -/
theorem checkAccess_snd (answers : ℕ → Answer ε) (now : ℕ) (principalId queueName : String)
    (permission : Permission) (context : Option Json) (m : Manager) :
    ((checkAccess keyPrefix scan answers now localHour principalId queueName permission
        context).run m).2.redis.server = m.redis.server ∧
      ∀ q ≠ principalId, ((checkAccess keyPrefix scan answers now localHour principalId queueName
        permission context).run m).2.aclCache q = m.aclCache q := by
  cases hc : m.aclCache principalId with
  | some cached =>
    rw [checkAccess_of_eq keyPrefix scan now (getPrincipalAccess_of_cached keyPrefix scan now hc)]
    exact ⟨rfl, fun _ _ => rfl⟩
  | none =>
    by_cases hr : m.Readable keyPrefix scan now answers principalId
    · obtain ⟨n, hrun⟩ := getPrincipalAccess_of_readable keyPrefix scan now hc hr
      rw [checkAccess_of_eq keyPrefix scan now hrun]
      exact ⟨rfl, fun q hq => Function.update_of_ne hq _ _⟩
    · obtain ⟨n, hrun⟩ := getPrincipalAccess_of_not_readable keyPrefix scan now hc hr
      rw [checkAccess_of_eq keyPrefix scan now hrun]
      exact ⟨rfl, fun _ _ => rfl⟩

/-- Two managers show the same of a principal: its keys hold the same, and the same entries are
cached for it, up to their order. -/
structure Agree (p : String) (m₁ m₂ : Manager) : Prop where
  lookup : ∀ k, KeyMatches (accessPattern keyPrefix p) k →
    m₁.redis.server.lookup k = m₂.redis.server.lookup k
  cache : Option.Rel List.Perm (m₁.aclCache p) (m₂.aclCache p)

theorem Agree.refl (p : String) (m : Manager) : Agree keyPrefix p m m where
  lookup _ _ := rfl
  cache := by
    cases m.aclCache p with
    | none => exact .none
    | some l => exact .some (.refl l)

variable {keyPrefix}

theorem Agree.begin {p : String} {m₁ m₂ : Manager} (h : Agree keyPrefix p m₁ m₂) :
    Agree keyPrefix p m₁.begin m₂.begin := ⟨h.lookup, h.cache⟩

/-- Both managers write: they agree again if the write treats every key by itself. -/
theorem Agree.writeThrough {p : String} {m₁ m₂ : Manager} (h : Agree keyPrefix p m₁ m₂)
    (hcalls : m₁.redis.calls = m₂.redis.calls) (answers : ℕ → Answer ε) (q : String)
    {write : Store AccessControlEntry → Store AccessControlEntry}
    (hwrite : ∀ s₁ s₂ k, s₁.lookup k = s₂.lookup k → (write s₁).lookup k = (write s₂).lookup k) :
    Agree keyPrefix p ((AccessControl.writeThrough answers q write).run m₁).2
      ((AccessControl.writeThrough answers q write).run m₂).2 := by
  obtain ⟨hs₁, hc₁⟩ := writeThrough_snd answers q write m₁
  obtain ⟨hs₂, hc₂⟩ := writeThrough_snd answers q write m₂
  rw [← hcalls] at hs₂ hc₂
  refine ⟨fun k hk => ?_, ?_⟩
  · rw [hs₁, hs₂]
    split
    · exact hwrite _ _ k (h.lookup k hk)
    · exact h.lookup k hk
  · rw [hc₁, hc₂]
    split
    · by_cases hq : p = q
      · subst hq
        rw [Function.update_self, Function.update_self]
        exact .none
      · rw [Function.update_of_ne hq, Function.update_of_ne hq]
        exact h.cache
    · exact h.cache

/-- One of them writes where the principal does not look. -/
theorem Agree.writeThrough_left {p q : String} {m₁ m₂ : Manager} (h : Agree keyPrefix p m₁ m₂)
    (hne : p ≠ q) (answers : ℕ → Answer ε)
    {write : Store AccessControlEntry → Store AccessControlEntry}
    (hwrite : ∀ s k, KeyMatches (accessPattern keyPrefix p) k → (write s).lookup k = s.lookup k) :
    Agree keyPrefix p ((AccessControl.writeThrough answers q write).run m₁).2 m₂ := by
  obtain ⟨hs, hc⟩ := writeThrough_snd answers q write m₁
  refine ⟨fun k hk => ?_, ?_⟩
  · rw [hs, ← h.lookup k hk]
    split
    · exact hwrite _ k hk
    · rfl
  · rw [hc]
    split
    · rw [Function.update_of_ne hne]
      exact h.cache
    · exact h.cache

/-- The managers have the same cached entries of the principal, in some order, or none. -/
theorem Agree.cached_or {p : String} {m₁ m₂ : Manager} (h : Agree keyPrefix p m₁ m₂) :
    (∃ l₁ l₂, m₁.aclCache p = some l₁ ∧ m₂.aclCache p = some l₂ ∧ l₁.Perm l₂) ∨
      m₁.aclCache p = none ∧ m₂.aclCache p = none := by
  have hcache := h.cache
  generalize m₁.aclCache p = c₁ at hcache ⊢
  generalize m₂.aclCache p = c₂ at hcache ⊢
  cases hcache with
  | some hl => exact .inl ⟨_, _, rfl, rfl, hl⟩
  | none => exact .inr ⟨rfl, rfl⟩

/-- The entries of the principal are found to be the same, in some order. -/
theorem Agree.getPrincipalAccess {p : String} {m₁ m₂ : Manager} (h : Agree keyPrefix p m₁ m₂)
    (hcalls : m₁.redis.calls = m₂.redis.calls) (answers : ℕ → Answer ε) (now : ℕ) :
    ∃ l₁ l₂ m₁' m₂',
      (AccessControl.getPrincipalAccess keyPrefix scan answers now p).run m₁ = (.ok l₁, m₁') ∧
      (AccessControl.getPrincipalAccess keyPrefix scan answers now p).run m₂ = (.ok l₂, m₂') ∧
      l₁.Perm l₂ ∧ Agree keyPrefix p m₁' m₂' := by
  obtain ⟨l₁, l₂, hc₁, hc₂, hl⟩ | ⟨hc₁, hc₂⟩ := h.cached_or
  · exact ⟨l₁, l₂, m₁, m₂, getPrincipalAccess_of_cached keyPrefix scan now hc₁,
      getPrincipalAccess_of_cached keyPrefix scan now hc₂, hl, h⟩
  have hkeys : (m₁.principalKeys keyPrefix scan now p).Perm
      (m₂.principalKeys keyPrefix scan now p) := Store.keys_perm h.lookup now
  have hread : m₁.Readable keyPrefix scan now answers p ↔
      m₂.Readable keyPrefix scan now answers p := by
    unfold Manager.Readable
    rw [hkeys.length_eq, hcalls]
  by_cases hr : m₁.Readable keyPrefix scan now answers p
  · obtain ⟨n₁, hrun₁⟩ := getPrincipalAccess_of_readable keyPrefix scan now hc₁ hr
    obtain ⟨n₂, hrun₂⟩ := getPrincipalAccess_of_readable keyPrefix scan now hc₂ (hread.mp hr)
    have hvalues : (m₁.principalKeys keyPrefix scan now p).filterMap (m₁.redis.server.get now)
        = (m₁.principalKeys keyPrefix scan now p).filterMap (m₂.redis.server.get now) := by
      refine List.filterMap_congr fun k hk => Store.get_congr (h.lookup k ?_) now
      exact (Store.mem_keys.mp hk).2
    have hperm := hvalues ▸ hkeys.filterMap (m₂.redis.server.get now)
    refine ⟨_, _, _, _, hrun₁, hrun₂, hperm, h.lookup, ?_⟩
    show Option.Rel List.Perm (Function.update m₁.aclCache p _ p)
      (Function.update m₂.aclCache p _ p)
    rw [Function.update_self, Function.update_self]
    exact .some hperm
  · obtain ⟨n₁, hrun₁⟩ := getPrincipalAccess_of_not_readable keyPrefix scan now hc₁ hr
    obtain ⟨n₂, hrun₂⟩ := getPrincipalAccess_of_not_readable keyPrefix scan now hc₂
      (mt hread.mpr hr)
    exact ⟨_, _, _, _, hrun₁, hrun₂, .refl _, h.lookup, h.cache⟩

/-- Both managers answer a check of `p`, and the answers are the same: the entries found are the
same up to their order, and as many commands have to succeed. -/
theorem Agree.checkAccess {p : String} {m₁ m₂ : Manager} (h : Agree keyPrefix p m₁ m₂)
    (hcalls : m₁.redis.calls = m₂.redis.calls) (answers : ℕ → Answer ε) (now : ℕ)
    (queueName : String) (permission : Permission) (context : Option Json) :
    let check := AccessControl.checkAccess keyPrefix scan answers now localHour p queueName
      permission context
    Agree keyPrefix p (check.run m₁).2 (check.run m₂).2 ∧ (check.run m₁).1 = (check.run m₂).1 := by
  intro check
  obtain ⟨l₁, l₂, m₁', m₂', hrun₁, hrun₂, hl, h'⟩ :=
    h.getPrincipalAccess scan hcalls answers now
  rw [checkAccess_of_eq _ _ _ hrun₁, checkAccess_of_eq _ _ _ hrun₂]
  exact ⟨h', by rw [hl.any_eq]⟩

/-- **The frame of a principal.** Where no key of `p'` is matched by the pattern of `p`, a call made
for `p'` shows nothing of itself to `p`. -/
theorem Agree.perform_left {p p' : String} (hne : p ≠ p')
    (hkey : ∀ queuePattern,
      ¬ KeyMatches (accessPattern keyPrefix p) (buildACEKey keyPrefix p' queuePattern))
    {c : Call ε} (hc : c.op.principalId = p') {m₁ m₂ : Manager} (h : Agree keyPrefix p m₁ m₂) :
    Agree keyPrefix p ((c.perform keyPrefix scan localHour).run m₁).2 m₂ := by
  subst hc
  unfold Call.perform
  cases hop : c.op with
  | grantAccess ace =>
    rw [hop] at hne hkey
    rw [Async.run_bind_pure]
    refine h.writeThrough_left hne c.answers fun s k hk => ?_
    rw [Store.lookup_set, if_neg]
    rintro rfl
    exact hkey _ hk
  | revokeAccess q queuePattern =>
    rw [hop] at hne hkey
    rw [Async.run_bind_pure]
    refine h.writeThrough_left hne c.answers fun s k hk => ?_
    rw [Store.lookup_del, if_neg]
    rintro rfl
    exact hkey _ hk
  | checkAccess q queueName permission context =>
    rw [hop] at hne
    rw [Async.run_bind_pure]
    obtain ⟨hs, hcache⟩ := checkAccess_snd keyPrefix scan localHour c.answers c.now q queueName
      permission context m₁
    exact ⟨fun k hk => by rw [hs, h.lookup k hk], by rw [hcache p hne]; exact h.cache⟩

/-- A call made for any principal keeps the agreement, and `p` gets the same answer to it. -/
theorem Agree.perform {p : String} (c : Call ε) {m₁ m₂ : Manager} (h : Agree keyPrefix p m₁ m₂)
    (hcalls : m₁.redis.calls = m₂.redis.calls) :
    Agree keyPrefix p ((c.perform keyPrefix scan localHour).run m₁).2
        ((c.perform keyPrefix scan localHour).run m₂).2 ∧
      c.answerTo p ((c.perform keyPrefix scan localHour).run m₁).1 =
        c.answerTo p ((c.perform keyPrefix scan localHour).run m₂).1 := by
  unfold Call.perform
  cases hop : c.op with
  | grantAccess ace =>
    simp only [Async.run_bind_pure, Call.answerTo_map_none, and_true]
    refine h.writeThrough hcalls c.answers ace.principalId fun s₁ s₂ k hk => ?_
    rw [Store.lookup_set, Store.lookup_set, hk]
  | revokeAccess q queuePattern =>
    simp only [Async.run_bind_pure, Call.answerTo_map_none, and_true]
    refine h.writeThrough hcalls c.answers q fun s₁ s₂ k hk => ?_
    rw [Store.lookup_del, Store.lookup_del, hk]
  | checkAccess q queueName permission context =>
    simp only [Async.run_bind_pure]
    by_cases hq : q = p
    · subst hq
      obtain ⟨hagree, hr⟩ := h.checkAccess scan localHour hcalls c.answers c.now queueName
        permission context
      exact ⟨hagree, by rw [hr]⟩
    · obtain ⟨hs₁, hc₁⟩ := checkAccess_snd keyPrefix scan localHour c.answers c.now q queueName
        permission context m₁
      obtain ⟨hs₂, hc₂⟩ := checkAccess_snd keyPrefix scan localHour c.answers c.now q queueName
        permission context m₂
      refine ⟨⟨fun k hk => by rw [hs₁, hs₂, h.lookup k hk], ?_⟩, ?_⟩
      · rw [hc₁ p (Ne.symm hq), hc₂ p (Ne.symm hq)]
        exact h.cache
      · have hprincipal : c.op.principalId ≠ p := by rwa [hop]
        unfold Call.answerTo
        rw [if_neg hprincipal, if_neg hprincipal]

/-! ## Whole histories -/

/-- Where no key of `p'` is matched by the pattern of `p`, the answers to `p` are the same in two
histories of which one leaves out the calls for `p'`. -/
theorem Agree.answersTo_eq {p p' : String} (hne : p ≠ p')
    (hkey : ∀ queuePattern,
      ¬ KeyMatches (accessPattern keyPrefix p) (buildACEKey keyPrefix p' queuePattern))
    (history : List (Call ε)) {m₁ m₂ : Manager} (h : Agree keyPrefix p m₁ m₂) :
    answersTo keyPrefix scan localHour p history m₁ =
      answersTo keyPrefix scan localHour p
        (history.filter fun c => c.op.principalId ≠ p') m₂ := by
  induction history generalizing m₁ m₂ with
  | nil => rfl
  | cons c history ih =>
    by_cases hc : c.op.principalId = p'
    · have hnil (r : Except ε (Option Bool)) : c.answerTo p r = [] :=
        if_neg (hc.trans_ne hne.symm)
      rw [List.filter_cons_of_neg (by simpa using hc), answersTo, hnil, List.nil_append]
      refine ih ?_
      -- the second manager has not moved
      exact ⟨(h.begin.perform_left scan localHour hne hkey hc).lookup,
        (h.begin.perform_left scan localHour hne hkey hc).cache⟩
    · obtain ⟨hagree, hanswer⟩ := h.begin.perform scan localHour c rfl
      rw [List.filter_cons_of_pos (by simpa using hc), answersTo, answersTo, hanswer, ih hagree]

/-- A grant to `p'` and a check by `p`. -/
def grantThenCheck (ε : Type) (p p' queuePattern : String) : List (Call ε) :=
  [⟨.grantAccess (grantAll p' queuePattern), 0, fun _ => .answered⟩,
    ⟨.checkAccess p queuePattern .canAddJob none, 0, fun _ => .answered⟩]

/-- A manager over an empty Redis, with nothing cached. -/
def Manager.new : Manager := ⟨⟨.empty, 0⟩, fun _ => none⟩

/-- Without a grant the check is refused. -/
theorem answersTo_check (p queuePattern : String) :
    answersTo keyPrefix scan localHour p
      [(⟨.checkAccess p queuePattern .canAddJob none, 0, fun _ => .answered⟩ : Call ε)] .new =
      [false] := by
  have hkeys : Manager.new.begin.principalKeys keyPrefix scan 0 p = [] := by
    refine List.eq_nil_iff_forall_not_mem.mpr fun k hk => ?_
    have := (Store.mem_keys.mp hk).1
    simp [Manager.begin, Manager.new, Store.get] at this
  have hread : Manager.new.begin.Readable keyPrefix scan 0 (fun _ => (.answered : Answer ε)) p :=
    fun _ _ => trivial
  obtain ⟨n, hrun⟩ := getPrincipalAccess_of_readable keyPrefix scan 0 (by rfl) hread
  rw [hkeys, List.filterMap_nil] at hrun
  simp only [answersTo, Call.perform, Async.run_bind_pure, checkAccess_of_eq _ _ _ hrun]
  simp [Call.answerTo, Op.principalId, Except.map]

/-- A stored grant of everything under a key that the pattern of `p` matches allows the check. -/
theorem checkAccess_of_stored {p p' queuePattern : String} {m : Manager}
    (hkey : KeyMatches (accessPattern keyPrefix p) (buildACEKey keyPrefix p' queuePattern))
    (hcache : m.aclCache p = none)
    (hget : m.redis.server.get 0 (buildACEKey keyPrefix p' queuePattern) =
      some (grantAll p' queuePattern)) :
    ((checkAccess (ε := ε) keyPrefix scan (fun _ => .answered) 0 localHour p queuePattern .canAddJob
      none).run m).1 = .ok true := by
  have hread : m.Readable keyPrefix scan 0 (fun _ => (.answered : Answer ε)) p :=
    fun _ _ => trivial
  obtain ⟨n, hrun⟩ := getPrincipalAccess_of_readable keyPrefix scan 0 hcache hread
  rw [checkAccess_of_eq _ _ _ hrun]
  have hmem : buildACEKey keyPrefix p' queuePattern ∈ m.principalKeys keyPrefix scan 0 p :=
    Store.mem_keys.mpr ⟨by rw [hget]; rfl, hkey⟩
  have hallowed : isAceAllowed 0 (localHour 0) (grantAll p' queuePattern) queuePattern .canAddJob
      none = true := by
    simp [isAceAllowed, grantAll, matchesPattern, QueuePermissions.get]
  refine congrArg Except.ok (List.any_eq_true.mpr ⟨_, ?_, hallowed⟩)
  exact List.mem_filterMap.mpr ⟨_, hmem, hget⟩

/-- A key of `p'` that the pattern of `p` matches lets a grant to `p'` answer a check by `p`. -/
theorem answersTo_grantThenCheck {p p' queuePattern : String}
    (hkey : KeyMatches (accessPattern keyPrefix p) (buildACEKey keyPrefix p' queuePattern)) :
    answersTo keyPrefix scan localHour p (grantThenCheck ε p p' queuePattern) .new = [true] := by
  obtain ⟨hs, hc⟩ := writeThrough_snd (fun _ => (.answered : Answer ε)) p'
    (fun r => r.set (buildACEKey keyPrefix p' queuePattern) (grantAll p' queuePattern).parsed
      (some (0 + aceLifetime))) Manager.new.begin
  rw [if_pos (by trivial)] at hs hc
  -- the manager after the grant
  generalize hm : ((AccessControl.writeThrough (fun _ => (.answered : Answer ε)) p' _).run
    Manager.new.begin).2 = m at hs hc
  have hget : m.begin.redis.server.get 0 (buildACEKey keyPrefix p' queuePattern) =
      some (grantAll p' queuePattern) := by
    show m.redis.server.get 0 _ = _
    rw [hs, Store.get, Store.lookup_set, if_pos rfl]
    simp [Entry.IsLive, aceLifetime, AccessControlEntry.parsed, grantAll]
  have hcache : m.begin.aclCache p = none := by
    show m.aclCache p = none
    rw [hc]
    by_cases hp : p = p'
    · rw [hp, Function.update_self]
    · rw [Function.update_of_ne hp]
      rfl
  have hcheck := checkAccess_of_stored (ε := ε) scan localHour hkey hcache hget
  have hrun : ((grantAccess keyPrefix (fun _ => (.answered : Answer ε)) 0
      (grantAll p' queuePattern)).run Manager.new.begin).2 = m := hm
  simp only [grantThenCheck, answersTo, Call.perform, Async.run_bind_pure, Call.answerTo_map_none]
  rw [hrun, hcheck]
  simp [Call.answerTo, Op.principalId, Except.map]

/-- **Isolation, exactly.** The calls made for `p'` never change an answer given to `p` if and only
if no key of an entry of `p'` is matched by the pattern under which the entries of `p` are looked
up. -/
theorem isolated_iff {p p' : String} (hne : p ≠ p') :
    Isolated keyPrefix scan localHour ε p p' ↔
      ∀ queuePattern,
        ¬ KeyMatches (accessPattern keyPrefix p) (buildACEKey keyPrefix p' queuePattern) := by
  refine ⟨fun h queuePattern hkey => ?_, fun hkey m history => ?_⟩
  · have hrun := h .new (grantThenCheck ε p p' queuePattern)
    rw [answersTo_grantThenCheck scan localHour hkey] at hrun
    have hfilter : (grantThenCheck ε p p' queuePattern).filter
        (fun c => decide (c.op.principalId ≠ p')) =
        [⟨.checkAccess p queuePattern .canAddJob none, 0, fun _ => .answered⟩] := by
      simp [grantThenCheck, grantAll, Op.principalId, hne]
    rw [hfilter, answersTo_check] at hrun
    simp at hrun
  · exact (Agree.refl keyPrefix p m).answersTo_eq scan localHour hne hkey history

end Runs

/-- The principals `alice` and `bob` of a plain prefix are isolated. -/
theorem isolated_iff_alice_bob :
    Isolated "acl" Scan.stored utcHour String "alice" "bob" ↔
      ∀ queuePattern,
        ¬ KeyMatches (accessPattern "acl" "alice") (buildACEKey "acl" "bob" queuePattern) :=
  isolated_iff Scan.stored utcHour (by decide)

/-- **Principals are not isolated in general**: a grant to `a:b` gives `a` access. -/
theorem not_isolated_a_ab : ¬ Isolated "acl" Scan.stored utcHour String "a" "a:b" := by
  intro h
  have hrun := h .new (grantThenCheck String "a" "a:b" "x")
  have hkey : KeyMatches (accessPattern "acl" "a") (buildACEKey "acl" "a:b" "x") := by decide
  rw [answersTo_grantThenCheck Scan.stored utcHour hkey] at hrun
  exact absurd (hrun.trans (answersTo_check Scan.stored utcHour "a" "x")) (by decide)

/-! ## Ids without glob letters -/

/-- Without glob letters in the prefix and the id, the pattern of `p` matches a key of `p'` when the
id of `p` and a colon begin the rest of that key. -/
theorem keyMatches_iff_startsWith {keyPrefix p : String}
    (hplain : ∀ c ∈ keyPrefix.toList, ¬ IsMeta c)
    (hp : ∀ c ∈ p.toList, ¬ IsMeta c) (p' queuePattern : String) :
    KeyMatches (accessPattern keyPrefix p) (buildACEKey keyPrefix p' queuePattern) ↔
      p.toList ++ [':'] <+: p'.toList ++ ':' :: queuePattern.toList := by
  have hpattern : accessPattern keyPrefix p = keyPrefix ++ ":ace:" ++ p ++ ":" ++ "*" := by
    rw [String.append_assoc]
    rfl
  have hplain : ∀ c ∈ (keyPrefix ++ ":ace:" ++ p ++ ":").toList, ¬ IsMeta c := by
    intro c hc
    simp only [String.toList_append, List.mem_append] at hc
    have hsep : ∀ s ∈ [":ace:", ":"], s.toList.all (fun c => ¬ IsMeta c) := by decide
    rcases hc with ((hc | hc) | hc) | hc
    · exact hplain c hc
    · exact of_decide_eq_true (List.all_eq_true.mp (hsep _ (by simp)) c hc)
    · exact hp c hc
    · exact of_decide_eq_true (List.all_eq_true.mp (hsep _ (by simp)) c hc)
  rw [hpattern, keyMatches_append_star hplain, buildACEKey]
  simp only [String.toList_append, List.append_assoc, List.prefix_append_right_inj]
  rfl

/-- **The bad pairs.** For a prefix and an id without glob letters, some key of `p'` is matched by
the pattern of `p` exactly when one of the ids is the other followed by a colon and more. -/
theorem exists_keyMatches_iff {keyPrefix p p' : String}
    (hplain : ∀ c ∈ keyPrefix.toList, ¬ IsMeta c)
    (hp : ∀ c ∈ p.toList, ¬ IsMeta c) (hne : p ≠ p') :
    (∃ queuePattern,
        KeyMatches (accessPattern keyPrefix p) (buildACEKey keyPrefix p' queuePattern)) ↔
      p.toList ++ [':'] <+: p'.toList ∨ p'.toList ++ [':'] <+: p.toList := by
  have hne' : p.toList ≠ p'.toList := fun h => hne (String.toList_injective h)
  simp only [keyMatches_iff_startsWith hplain hp]
  generalize p.toList = a at hne'
  generalize p'.toList = b at hne'
  refine ⟨fun ⟨queuePattern, h⟩ => ?_, fun h => ?_⟩
  · have hb : b ++ [':'] <+: b ++ ':' :: queuePattern.toList :=
      (List.prefix_append_right_inj b).mpr ⟨queuePattern.toList, rfl⟩
    -- two prefixes of one key: the shorter one is a prefix of the other
    rcases List.prefix_or_prefix_of_prefix h hb with hab | hba
    · refine .inl ((List.prefix_concat_iff.mp hab).resolve_left fun he => hne' ?_)
      exact List.append_cancel_right he
    · refine .inr ((List.prefix_concat_iff.mp hba).resolve_left fun he => hne' ?_)
      exact (List.append_cancel_right he).symm
  · rcases h with h | ⟨t, rfl⟩
    · exact ⟨"", h.trans (List.prefix_append b _)⟩
    · exact ⟨String.ofList (t ++ [':']), by simp⟩

end KitiumJobQueue.AccessControl
