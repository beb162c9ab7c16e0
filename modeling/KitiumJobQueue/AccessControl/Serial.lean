import KitiumJobQueue.AccessControl.Provenance
import KitiumJobQueue.Redis.Serial

/-!
# Access without overlapping calls

`Manager` translates the access methods of `AccessControlManager` as computations over the manager
and its Redis, and `Provenance` as coroutines. Each method, called while no other is under way, does
and answers what the computation does, so a history of calls one after another is a run of the
overlapping manager, with the same answers (`exists_overlapping_run`).
-/

namespace KitiumJobQueue.AccessControl.Provenance

open Effects Redis Redis.Client

/-! ## Methods -/

/-- The Redis of a manager. -/
def home : Home AccessControlEntry Manager where
  get := Manager.redis
  put redis m := { m with redis := redis }
  get_put _ _ := rfl

variable {ε α : Type} {scan : Scan AccessControlEntry} {keyPrefix : String} {localHour : ℕ → ℕ}
  {answers : ℕ → Answer ε} {now : ℕ}

/-- The manager has this cache. -/
def Caches (cache : Cache) (m : Manager) : Prop := cache = m.aclCache

/-- On its own, at the time `now`, the method does what the computation does. -/
abbrev Follows (scan : Scan AccessControlEntry) (answers : ℕ → Answer ε) (now : ℕ)
    (m : Method ε α) (m' : Async ε Manager α) : Prop :=
  Mirrors (serve scan) (Matches home answers now Caches) (Matches home answers now Caches) m m'

theorem follows_command {c : Command AccessControlEntry}
    {op : Store AccessControlEntry → Reply c × Store AccessControlEntry}
    (hop : ∀ (answer : Answer ε) server,
      serve scan ⟨answer, now⟩ c server = (perform answer op).run server) :
    Follows scan answers now (ask c) (command answers op) :=
  mirrors_command hop fun _ _ _ h => h

theorem follows_update (principalId : String) (aces : Option (List AccessControlEntry)) :
    Follows scan answers now (.modify fun cache => Function.update cache principalId aces)
      (.modify fun m => { m with aclCache := Function.update m.aclCache principalId aces }) := by
  refine mirrors_modify (fun _ => rfl) fun cache m h => ?_
  obtain rfl : cache = m.aclCache := h
  rfl

theorem follows_grantAccess (ace : AccessControlEntry) :
    Follows scan answers now (grantAccess keyPrefix ace)
      (AccessControl.grantAccess keyPrefix answers now ace) :=
  .bind (follows_command fun _ _ => rfl) (fun _ => follows_update _ none) fun _ _ h => h

theorem follows_revokeAccess (principalId queuePattern : String) :
    Follows scan answers now (revokeAccess keyPrefix principalId queuePattern)
      (AccessControl.revokeAccess keyPrefix answers principalId queuePattern) :=
  .bind (follows_command fun _ _ => rfl) (fun _ => follows_update _ none) fun _ _ h => h

/-- The loop, by induction on the keys that are left. -/
theorem follows_readAces (keys : List String) (aces : List AccessControlEntry) :
    Follows scan answers now (readAces (fun _ => true) keys aces)
      (AccessControl.readAces answers now keys aces) := by
  induction keys generalizing aces with
  | nil => exact .pure aces
  | cons key keys ih =>
    refine .bind (follows_command fun _ _ => rfl) (fun data => ?_) fun _ _ h => h
    rw [List.filter_true]
    exact ih _

theorem follows_getPrincipalAccess (principalId : String) :
    Follows scan answers now (getPrincipalAccess keyPrefix principalId)
      (AccessControl.getPrincipalAccess keyPrefix scan answers now principalId) := by
  refine .handle (.read_bind fun w m h => ?_) fun _ => .pure []
  rw [show w.memory = m.aclCache from h.memory]
  cases m.aclCache principalId with
  | some cached => exact ⟨rfl, h⟩
  | none =>
    refine Mirrors.bind (follows_command fun _ _ => rfl) (fun keys => ?_) (fun _ _ h => h) w m h
    refine .bind (follows_readAces keys []) (fun aces => ?_) fun _ _ h => h
    exact .bind (follows_update _ (some aces)) (fun _ => .pure aces) fun _ _ h => h

/-- The loop, by induction on the entries: each is checked at the time it is. -/
theorem mirrors_findAllowed (queueName : String) (permission : Permission) (context : Option Json)
    (aces : List AccessControlEntry) :
    Mirrors (serve (ε := ε) scan) (Stands home now Caches) (Stands home now Caches)
      (findAllowed localHour queueName permission context aces)
      (pure (aces.any fun ace =>
        isAceAllowed now (localHour now) ace queueName permission context)) := by
  induction aces with
  | nil => exact .pure false
  | cons ace aces ih =>
    refine mirrors_now_bind ?_
    rw [List.any_cons]
    cases isAceAllowed now (localHour now) ace queueName permission context with
    | true => exact .pure true
    | false => exact ih

theorem mirrors_checkAccess (principalId queueName : String) (permission : Permission)
    (context : Option Json) :
    Mirrors (serve scan) (Matches home answers now Caches) (Stands home now Caches)
      (checkAccess keyPrefix localHour principalId queueName permission context)
      (AccessControl.checkAccess keyPrefix scan answers now localHour principalId queueName
        permission context) := by
  refine .handle (.bind (follows_getPrincipalAccess principalId) (fun aces => ?_)
    fun _ _ h => h.stands) fun _ => .pure false
  exact fun w m h => mirrors_findAllowed queueName permission context aces w m h.stands

/-! ## Histories -/

/-- The same call of the overlapping manager. -/
def requestOf : Op → Request
  | .grantAccess ace => .grantAccess ace
  | .revokeAccess principalId queuePattern => .revokeAccess principalId queuePattern
  | .checkAccess principalId queueName permission context =>
    .checkAccess principalId queueName permission context

/-- What it resolves with. -/
def resultOf : Option Bool → Result
  | none => .done
  | some allowed => .allowed allowed

/-- The principal a call is about. -/
def principal? : Request → Option String
  | .grantAccess ace => some ace.principalId
  | .revokeAccess principalId _ | .getPrincipalAccess principalId
  | .checkAccess principalId _ _ _ => some principalId
  | .getQueueAccess _ => none

theorem principal?_requestOf (op : Op) : principal? (requestOf op) = some op.principalId := by
  cases op <;> rfl

/-- A called method. -/
abbrev Called (ε : Type) :=
  Thread ε Cache (Reply (V := AccessControlEntry)) Request Result

/-- The answer it has given to the principal `p`. -/
def answerOf (p : String) (t : Called ε) : List Bool :=
  match t.stage with
  | .settled (.ok (.allowed allowed)) => if principal? t.label = some p then [allowed] else []
  | .settled (.ok .done) | .settled (.ok (.aces _)) | .settled (.error _) => []
  | .waiting _ _ | .ready _ _ _ => []

theorem answerOf_settled (p : String) (c : Call ε) (r : Except ε (Option Bool))
    (heard : Transcript ε (Reply (V := AccessControlEntry))) :
    answerOf p ⟨requestOf c.op, heard, .settled (r.map resultOf)⟩ = c.answerTo p r := by
  unfold Call.answerTo
  rcases r with _ | _ | allowed
  · exact (ite_self _).symm
  · exact (ite_self _).symm
  · exact if_congr (by rw [principal?_requestOf, Option.some_inj]) rfl rfl

theorem mirrors_perform (c : Call ε) :
    Mirrors (serve scan) (Matches home c.answers c.now Caches) (Stands home c.now Caches)
      ((requestOf c.op).method keyPrefix localHour)
      (c.perform keyPrefix scan localHour >>= fun answer => pure (resultOf answer)) := by
  rcases c with ⟨op, now, answers⟩
  cases op with
  | grantAccess ace =>
    rw [Call.perform, Async.bind_pure_bind_pure]
    exact ((follows_grantAccess ace).bind_pure fun _ => Result.done).mono fun _ _ h => h.stands
  | revokeAccess principalId queuePattern =>
    rw [Call.perform, Async.bind_pure_bind_pure]
    exact ((follows_revokeAccess principalId queuePattern).bind_pure fun _ => Result.done).mono
      fun _ _ h => h.stands
  | checkAccess principalId queueName permission context =>
    rw [Call.perform, Async.bind_pure_bind_pure]
    exact (mirrors_checkAccess principalId queueName permission context).bind_pure Result.allowed

/-- **A history is a run.** Calls that are made one after another, each with its time and the
answers to its commands, can be made of the overlapping manager in this order, and every principal
gets the same answers. -/
theorem exists_overlapping_run (history : List (Call ε)) (w : World ε) {m : Manager}
    (hcache : w.memory = m.aclCache) (hserver : w.server = m.redis.server) :
    ∃ es w' ts, (system scan keyPrefix localHour).runFrom w es = some w' ∧
      w'.threads = w.threads ++ ts ∧
      ts.map Thread.label = history.map (fun c => requestOf c.op) ∧
      ∀ p, ts.flatMap (answerOf p) = answersTo keyPrefix scan localHour p history m := by
  induction history generalizing w m with
  | nil => exact ⟨[], w, [], rfl, (List.append_nil _).symm, rfl, fun _ => rfl⟩
  | cons c history ih =>
    have hcaches : Caches w.memory m.begin := hcache
    obtain ⟨choices, hmatches⟩ : ∃ choices, Matches home c.answers c.now Caches
        ⟨w.toShared, choices, []⟩ m.begin := exists_matches hserver hcaches c.now
    obtain ⟨es₁, solo, hrun₁, hstands⟩ := exists_run_of_mirrors (mirrors_perform c) w hmatches
    rw [Async.run_bind_pure] at hrun₁ hstands
    generalize hended : (c.perform keyPrefix scan localHour).run m.begin = ended at hrun₁ hstands
    let t : Called ε := ⟨requestOf c.op, solo.heard, .settled (ended.1.map resultOf)⟩
    obtain ⟨es₂, w', ts, hrun₂, hthreads, hlabels, hanswers⟩ :=
      ih ⟨solo.toShared, w.threads ++ [t]⟩ hstands.memory hstands.server
    refine ⟨_, w', t :: ts, System.runFrom_append_eq_some.mpr ⟨_, hrun₁, hrun₂⟩, ?_, ?_, ?_⟩
    · rw [hthreads, List.append_assoc, List.singleton_append]
    · exact congrArg (requestOf c.op :: ·) hlabels
    · intro p
      rw [List.flatMap_cons, hanswers p, answerOf_settled, answersTo, hended]

end KitiumJobQueue.AccessControl.Provenance
