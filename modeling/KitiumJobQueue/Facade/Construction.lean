import KitiumJobQueue.Config
import KitiumJobQueue.Container.Bindings
import KitiumJobQueue.Foundations.Systems

/-!
# Constructing a facade

The constructor of `JobQueueFacade` fills a container of its own and resolves five services at once
(`initializeServices`). Two of them are made from the queue client of `QueueConnectionManager`,
which is there once `connect` has been called, and `connect` is a method of the facade.

Whether a key can be resolved is read off the factories (`buildable`): with a queue client every key
that is bound, without one every key but these two, whatever was resolved before
(`isOk_resolveAll_iff`). So no facade is ever constructed (`not_constructed`).
-/

namespace KitiumJobQueue.Facade

open Effects
open Services (Application Factory Method Service registerJobQueueBindings resolve)

/-! ## The constructor -/

/-- The fields of a facade; its container is the state. -/
structure JobQueueFacade where
  config : QueueConfig
  eventCoordinator : Service
  processingOrchestrator : Service
  statusQueryService : Service
  dlqManager : Service
  connectionManager : Service

/-- `JobQueueFacade.initializeServices` -/
def initializeServices (depth : ℕ) (config : QueueConfig) : Method JobQueueFacade := do
  let eventCoordinator ← resolve depth "EventCoordinator"
  let processingOrchestrator ← resolve depth "JobProcessingOrchestrator"
  let statusQueryService ← resolve depth "JobStatusQueryService"
  let dlqManager ← resolve depth "DLQManager"
  let connectionManager ← resolve depth "QueueConnectionManager"
  pure {
    config, eventCoordinator, processingOrchestrator, statusQueryService, dlqManager,
    connectionManager }

/-- The constructor of `JobQueueFacade`. The configuration is also handed to the factories, where
constructors keep parts of it. -/
def JobQueueFacade.new (depth : ℕ) (config : QueueConfig) :
    Except String JobQueueFacade × Application :=
  (initializeServices depth config).run { container := registerJobQueueBindings {} }

/-- The keys that `initializeServices` resolves, in its order. -/
def initialized : List String :=
  ["EventCoordinator", "JobProcessingOrchestrator", "JobStatusQueryService", "DLQManager",
    "QueueConnectionManager"]

/-- Resolve one key after another. -/
def resolveAll (depth : ℕ) (keys : List String) : Method Unit :=
  keys.forM fun key => do
    let _ ← resolve depth key

/-! ## Which keys can be resolved -/

/-- The factory that `registerJobQueueBindings` binds to a key. -/
def factoryOf (key : String) : Option Factory := (registerJobQueueBindings {}).bindings.get key

/-- The factory throws without a queue client. -/
def needsClient : Factory → Bool
  | .construct _ _ => false
  | .dlqManager => true
  | .jobStatusQueryService => true

/-- What a factory resolves, in its order. -/
def dependencies : Factory → List String
  | .construct _ dependencies => dependencies
  | .dlqManager => ["QueueConnectionManager", "EventCoordinator", "JobMetricsCollector"]
  | .jobStatusQueryService => ["QueueConnectionManager", "JobStatusFactory", "DLQManager"]

/-- The key of a factory that throws without a queue client. -/
def KeyNeedsClient (key : String) : Prop := (factoryOf key).any needsClient = true

instance : DecidablePred KeyNeedsClient := fun _ => inferInstanceAs (Decidable (_ = true))

/-- The key can be resolved, with calls nested so deep, where `connected` says whether there is a
queue client. -/
def buildable (connected : Bool) : (depth : ℕ) → (key : String) → Bool
  | 0, _ => false
  | depth + 1, key => (factoryOf key).any fun factory =>
    (connected || !needsClient factory) && (dependencies factory).all (buildable connected depth)

/-- A container with these bindings and this queue client; what it has made without a client is
nothing that needs one. -/
structure Registered (client : Option ℕ) (app : Application) : Prop where
  bindings : app.container.bindings = (registerJobQueueBindings {}).bindings
  client_eq : app.getQueueClient = client
  made : client = none → ∀ key service, app.container.singletons.get key = some service →
    ¬ KeyNeedsClient key

theorem registered_init : Registered none {} where
  bindings := rfl
  client_eq := rfl
  made _ _ _ h := absurd h (Option.some_ne_none _).symm

section Resolve

variable {client : Option ℕ} {app : Application} {key : String} {factory : Factory}

theorem Registered.keep (h : Registered client app) (hkey : client = none → ¬ KeyNeedsClient key)
    (service : Service) :
    Registered client { app with container := app.container.keep key service } where
  bindings := h.bindings
  client_eq := h.client_eq
  made hnone key' service' hmade := by
    rw [Container.DIContainer.get_singletons_keep] at hmade
    split at hmade
    · next heq => exact heq ▸ hkey hnone
    · exact h.made hnone key' service' hmade

theorem Registered.lookup_eq_run (h : Registered client app)
    (hrun : app.container.lookup key = .run factory) : factoryOf key = some factory := by
  rw [factoryOf, ← h.bindings]
  exact (Container.DIContainer.lookup_eq_run hrun).1

/-- A key that is bound is cached or its factory is called. -/
theorem Registered.lookup_cases (h : Registered client app) (hkey : factoryOf key = some factory) :
    (∃ service, app.container.lookup key = .cached service) ∨
      app.container.lookup key = .run factory := by
  rw [factoryOf, ← h.bindings] at hkey
  unfold Container.DIContainer.lookup
  rw [hkey]
  cases app.container.singletons.get key with
  | none => exact .inr rfl
  | some service => exact .inl ⟨service, rfl⟩

theorem delivers_queueClient {current : ℕ} :
    Async.Delivers (Registered (some current)) Services.queueClient := by
  refine Async.Delivers.read_bind fun app happ => ?_
  rw [happ.client_eq]
  exact .pure current

theorem fails_queueClient :
    Async.Fails (Registered none) "Queue client not initialized" Services.queueClient := by
  refine Async.Fails.read_bind fun app happ => ?_
  rw [happ.client_eq]
  exact .throw _

/-- A factory that has a client, or needs none, fails only where a service it resolves does. -/
theorem delivers_run {resolve' : String → Method Service}
    (hclient : client = none → needsClient factory = false)
    (hdependencies : ∀ key ∈ dependencies factory,
      Async.Delivers (Registered client) (resolve' key)) :
    Async.Delivers (Registered client) (factory.run resolve') := by
  cases factory with
  | construct className keys =>
    have hall : Async.Delivers (Registered client) (keys.forM fun key => do
        let _ ← resolve' key) :=
      .forM fun key hkey => (hdependencies key hkey).bind fun _ => .pure ()
    exact hall.bind fun _ => .pure _
  | dlqManager =>
    obtain ⟨current, rfl⟩ := Option.ne_none_iff_exists'.mp fun h => Bool.noConfusion (hclient h)
    obtain ⟨hmanager, hevents, hmetrics, -⟩ := by
      simpa only [dependencies, List.forall_mem_cons] using hdependencies
    exact hmanager.bind fun _ => delivers_queueClient.bind fun _ => hevents.bind fun _ =>
      hmetrics.bind fun _ => .pure _
  | jobStatusQueryService =>
    obtain ⟨current, rfl⟩ := Option.ne_none_iff_exists'.mp fun h => Bool.noConfusion (hclient h)
    obtain ⟨hmanager, hstatuses, hdlq, -⟩ := by
      simpa only [dependencies, List.forall_mem_cons] using hdependencies
    exact hmanager.bind fun _ => delivers_queueClient.bind fun _ => hstatuses.bind fun _ =>
      hdlq.bind fun _ => .pure _

theorem delivers_resolve (depth extra : ℕ) (key : String)
    (h : buildable client.isSome depth key = true) :
    Async.Delivers (Registered client) (resolve (depth + extra) key) := by
  induction depth generalizing key with
  | zero => exact absurd h Bool.false_ne_true
  | succ depth ih =>
    obtain ⟨factory, hfactory, hbuild⟩ := (Option.any_eq_true _ _).mp h
    obtain ⟨hconnected, hdependencies⟩ := Bool.and_eq_true_iff.mp hbuild
    rw [Nat.add_right_comm]
    refine Async.Delivers.read_bind fun app happ => ?_
    rcases happ.lookup_cases hfactory with ⟨service, hlookup⟩ | hlookup <;> rw [hlookup]
    · exact .pure service
    · have hneeds : client = none → needsClient factory = false := by
        rintro rfl
        simpa using hconnected
      have hrun : Async.Delivers (Registered client) (factory.run (resolve (depth + extra))) :=
        delivers_run hneeds fun key hkey =>
          ih key (List.all_eq_true.mp hdependencies key hkey)
      refine hrun.bind fun service => (Async.Delivers.modify fun _ h => h.keep ?_ service).bind
        fun _ => .pure service
      intro hnone hkey
      rw [KeyNeedsClient, hfactory] at hkey
      exact absurd (hneeds hnone) (by simpa using hkey)

theorem initialized_bound :
    ∀ key ∈ initialized, key ∈ (registerJobQueueBindings {}).bindings.keys := by
  decide +kernel

/-- The keys of the two services that are made from the queue client. -/
theorem keyNeedsClient_iff :
    KeyNeedsClient key ↔ key = "DLQManager" ∨ key = "JobStatusQueryService" := by
  have hentries : ∀ e ∈ (registerJobQueueBindings {}).bindings.entries,
      needsClient e.2 = true ↔ e.1 = "DLQManager" ∨ e.1 = "JobStatusQueryService" := by
    decide +kernel
  constructor
  · intro hkey
    obtain ⟨factory, hfactory, hneeds⟩ := (Option.any_eq_true _ _).mp hkey
    exact (hentries (key, factory) (InsertionMap.get_eq_some.mp hfactory)).mp hneeds
  · intro hkey
    have hinitialized : key ∈ initialized := by
      rcases hkey with rfl | rfl <;> simp [initialized]
    obtain ⟨⟨_, factory⟩, hmem, rfl⟩ := List.mem_map.mp (initialized_bound key hinitialized)
    exact (Option.any_eq_true _ _).mpr
      ⟨factory, InsertionMap.get_eq_some.mpr hmem, (hentries _ hmem).mpr hkey⟩

/-- Every key that is bound can be resolved with calls nested four deep, and without a client if it
needs none. -/
theorem buildable_of_bound {connected : Bool}
    (hbound : key ∈ (registerJobQueueBindings {}).bindings.keys)
    (hconnected : connected = false → ¬ KeyNeedsClient key) :
    buildable connected 4 key = true := by
  have hall : ∀ key ∈ (registerJobQueueBindings {}).bindings.keys,
      buildable true 4 key = true ∧ (¬ KeyNeedsClient key → buildable false 4 key = true) := by
    decide +kernel
  cases connected with
  | true => exact (hall key hbound).1
  | false => exact (hall key hbound).2 (hconnected rfl)

theorem delivers_of_bound (depth : ℕ) (hbound : key ∈ (registerJobQueueBindings {}).bindings.keys)
    (hkey : client = none → ¬ KeyNeedsClient key) :
    Async.Delivers (Registered client) (resolve (depth + 4) key) := by
  rw [Nat.add_comm]
  refine delivers_resolve 4 depth key (buildable_of_bound hbound fun hclient => hkey ?_)
  simpa using hclient

/-- Without a client a factory that needs one fails, once it has the connection manager. -/
theorem fails_resolve (extra : ℕ) (hkey : KeyNeedsClient key) :
    Async.Fails (Registered none) "Queue client not initialized" (resolve (extra + 3) key) := by
  obtain ⟨factory, hfactory, hneeds⟩ := (Option.any_eq_true _ _).mp hkey
  have hmanager :
      Async.Delivers (Registered none) (resolve (extra + 2) "QueueConnectionManager") := by
    rw [Nat.add_comm]
    exact delivers_resolve 2 extra _ (by decide +kernel)
  refine Async.Fails.read_bind fun app happ => ?_
  rcases happ.lookup_cases hfactory with ⟨service, hlookup⟩ | hlookup <;> rw [hlookup]
  · exact absurd hkey (happ.made rfl key service (Container.DIContainer.lookup_eq_cached hlookup))
  · refine Async.Fails.bind ?_ _
    cases factory with
    | construct className keys => exact absurd hneeds Bool.false_ne_true
    | dlqManager => exact hmanager.bind_fails fun _ => fails_queueClient.bind _
    | jobStatusQueryService => exact hmanager.bind_fails fun _ => fails_queueClient.bind _

/-- Without a client, however deep calls may be nested, no service that needs one is returned. -/
theorem yields_resolve (depth : ℕ) (key : String) :
    Async.Yields (Registered none) (fun _ => ¬ KeyNeedsClient key) (resolve depth key) := by
  refine Services.yields_resolve_of (P := fun key _ => ¬ KeyNeedsClient key) ?_ ?_ ?_ depth key
  · exact fun app key service happ hlookup =>
      happ.made rfl key service (Container.DIContainer.lookup_eq_cached hlookup)
  · intro app key factory resolve' happ hlookup hresolve
    have hfactory := happ.lookup_eq_run hlookup
    have hclient : Async.Yields (Registered none) (fun _ => False) Services.queueClient := by
      refine Async.Yields.read_bind fun app happ => ?_
      rw [happ.client_eq]
      exact .throw _
    cases factory with
    | construct className keys =>
      have hall : Async.Yields (Registered none) (fun _ => True) (keys.forM fun key => do
          let _ ← resolve' key) :=
        .forM fun key _ => (hresolve key).bind fun _ _ => .pure trivial
      refine hall.bind fun _ _ => .pure fun hkey => ?_
      rw [KeyNeedsClient, hfactory] at hkey
      exact Bool.false_ne_true hkey
    | dlqManager => exact (hresolve _).bind fun _ _ => hclient.bind fun _ h => h.elim
    | jobStatusQueryService => exact (hresolve _).bind fun _ _ => hclient.bind fun _ h => h.elim
  · exact fun _ key service happ hkey => happ.keep (fun _ => hkey) service

end Resolve

/-! ## Before `connect` -/

section Sequences

variable {client : Option ℕ} {app : Application} {keys : List String}

theorem delivers_resolveAll (depth : ℕ)
    (hbound : ∀ key ∈ keys, key ∈ (registerJobQueueBindings {}).bindings.keys)
    (hkeys : client = none → ∀ key ∈ keys, ¬ KeyNeedsClient key) :
    Async.Delivers (Registered client) (resolveAll (depth + 4) keys) := by
  refine .forM fun key hkey => Async.Delivers.bind ?_ fun _ => .pure ()
  exact delivers_of_bound depth (hbound key hkey) fun hclient => hkeys hclient key hkey

theorem fails_resolveAll (depth : ℕ)
    (hbound : ∀ key ∈ keys, key ∈ (registerJobQueueBindings {}).bindings.keys)
    (hneeds : ∃ key ∈ keys, KeyNeedsClient key) :
    Async.Fails (Registered none) "Queue client not initialized" (resolveAll (depth + 4) keys) := by
  have hfails (key : String) (hkey : KeyNeedsClient key) :
      Async.Fails (Registered none) "Queue client not initialized" (do
        let _ ← resolve (depth + 4) key) :=
    (fails_resolve (depth + 1) hkey).bind _
  refine .forM (fun key hmem => ?_) ?_
  · by_cases hkey : KeyNeedsClient key
    · exact .inr (hfails key hkey)
    · refine .inl (Async.Delivers.bind ?_ fun _ => .pure ())
      exact delivers_of_bound depth (hbound key hmem) fun _ => hkey
  · obtain ⟨key, hmem, hkey⟩ := hneeds
    exact ⟨key, hmem, hfails key hkey⟩

/-- **Keys that are bound can be resolved one after another, in any order, exactly when there is a
queue client or none of them needs one.** -/
theorem isOk_resolveAll_iff (h : Registered client app) (depth : ℕ)
    (hbound : ∀ key ∈ keys, key ∈ (registerJobQueueBindings {}).bindings.keys) :
    ((resolveAll (depth + 4) keys).run app).1.isOk = true ↔
      client ≠ none ∨ ∀ key ∈ keys, ¬ KeyNeedsClient key := by
  by_cases hkeys : client = none → ∀ key ∈ keys, ¬ KeyNeedsClient key
  · obtain ⟨_, _, hrun, -⟩ := delivers_resolveAll depth hbound hkeys app h
    rw [hrun]
    exact iff_of_true rfl (not_or_of_imp hkeys)
  · obtain ⟨rfl, hsome⟩ := Classical.not_imp.mp hkeys
    have hneeds : ∃ key ∈ keys, KeyNeedsClient key := by
      simpa only [not_forall, not_not, exists_prop] using hsome
    obtain ⟨_, hrun, -⟩ := fails_resolveAll depth hbound hneeds app h
    rw [hrun]
    exact iff_of_false Bool.false_ne_true fun h =>
      hkeys fun hnone => h.resolve_left (not_not_intro hnone)

end Sequences

/-! ## No facade -/

/-- The methods of a facade. -/
inductive Operation
  | connect | registerProcessor | addJob | scheduleJob | scheduleEvery
  | getJobStatus | getJobsByStatus | getDLQJobs | replayDLQ
  | pause | resume | isPaused | on | off | healthCheck | close | getContainer
  deriving DecidableEq

/-- The facades that were constructed, each with its container, the methods of theirs that were
called, and the messages of the constructors that threw. -/
structure World where
  facades : List (JobQueueFacade × Application) := []
  called : List (ℕ × Operation) := []
  thrown : List String := []

/-- A construction, or a call of a method. -/
inductive Event
  | new (config : QueueConfig)
  | call (facade : ℕ) (operation : Operation)

/-- Facades under any sequence of calls; `effect` is what a method does to its container. -/
def system (depth : ℕ) (effect : Operation → JobQueueFacade × Application → Application) :
    System World Event where
  step w
    | .new config =>
      match JobQueueFacade.new depth config with
      | (.ok facade, app) => some { w with facades := w.facades ++ [(facade, app)] }
      | (.error message, _) => some { w with thrown := message :: w.thrown }
    | .call facade operation =>
      w.facades[facade]?.map fun f => { w with
        facades := w.facades.set facade (f.1, effect operation f)
        called := (facade, operation) :: w.called }

theorem yields_initializeServices (depth : ℕ) (config : QueueConfig) :
    Async.Yields (Registered none) (fun _ => False) (initializeServices depth config) :=
  (yields_resolve depth _).bind fun _ _ => (yields_resolve depth _).bind fun _ _ =>
    (yields_resolve depth "JobStatusQueryService").bind fun _ hclient =>
      absurd (keyNeedsClient_iff.mpr (.inr rfl)) hclient

/-- However deep calls may be nested, the constructor does not return. -/
theorem new_ne_ok (depth : ℕ) (config : QueueConfig) (facade : JobQueueFacade) :
    (JobQueueFacade.new depth config).1 ≠ .ok facade :=
  (yields_initializeServices depth config {} registered_init).2 facade

/-- With calls nested four deep the constructor gets as far as the first service with a client. -/
theorem new_eq_error (depth : ℕ) (config : QueueConfig) :
    (JobQueueFacade.new (depth + 4) config).1 = .error "Queue client not initialized" := by
  have hfails : Async.Fails (Registered none) "Queue client not initialized"
      (initializeServices (depth + 4) config) := by
    have hevents : ¬ KeyNeedsClient "EventCoordinator" := by simp [keyNeedsClient_iff]
    have hprocessing : ¬ KeyNeedsClient "JobProcessingOrchestrator" := by simp [keyNeedsClient_iff]
    have hservice (key : String) (hkey : key ∈ initialized) (hneeds : ¬ KeyNeedsClient key) :
        Async.Delivers (Registered none) (resolve (depth + 4) key) :=
      delivers_of_bound depth (initialized_bound key hkey) fun _ => hneeds
    refine (hservice _ (by simp [initialized]) hevents).bind_fails fun _ => ?_
    refine (hservice _ (by simp [initialized]) hprocessing).bind_fails fun _ => ?_
    exact (fails_resolve (depth + 1) (keyNeedsClient_iff.mpr (.inr rfl))).bind _
  obtain ⟨_, hrun, -⟩ := hfails {} registered_init
  exact congrArg Prod.fst hrun

/-- No facade was constructed and no method called. -/
structure Empty (w : World) : Prop where
  facades : w.facades = []
  called : w.called = []

theorem empty_step {depth : ℕ} {effect : Operation → JobQueueFacade × Application → Application}
    {w w' : World} {e : Event} (hw : Empty w) (h : (system depth effect).step w e = some w') :
    Empty w' := by
  cases e with
  | new config =>
    simp only [system] at h
    split at h
    · next facade app hnew =>
      exact absurd (congrArg Prod.fst hnew) (new_ne_ok depth config facade)
    · obtain rfl := Option.some.inj h
      exact ⟨hw.facades, hw.called⟩
  | call facade operation =>
    obtain ⟨f, hf, -⟩ := Option.map_eq_some_iff.mp h
    rw [hw.facades] at hf
    exact absurd hf (Option.some_ne_none f).symm

theorem empty_of_run {depth : ℕ} {effect : Operation → JobQueueFacade × Application → Application}
    {w : World} {es : List Event} (h : (system depth effect).runFrom {} es = some w) : Empty w :=
  System.invariant (fun _ _ _ => empty_step) ⟨rfl, rfl⟩ h

/-- **The constructor throws for every configuration, and so does resolving its keys in any other
order; no method of a facade is ever called.** -/
theorem not_constructed (depth : ℕ) (config : QueueConfig) :
    (JobQueueFacade.new (depth + 4) config).1 = .error "Queue client not initialized" ∧
      (∀ order, order.Perm initialized →
        ((resolveAll (depth + 4) order).run {}).1 = .error "Queue client not initialized") ∧
      ∀ (stack : ℕ) (effect : Operation → JobQueueFacade × Application → Application)
        (es : List Event) (w : World), (system stack effect).runFrom {} es = some w →
          w.facades = [] ∧ w.called = [] := by
  refine ⟨new_eq_error depth config, fun order horder => ?_, fun stack effect es w hrun => ?_⟩
  · have hbound : ∀ key ∈ order, key ∈ (registerJobQueueBindings {}).bindings.keys :=
      fun key hkey => initialized_bound key (horder.mem_iff.mp hkey)
    have hneeds : ∃ key ∈ order, KeyNeedsClient key :=
      ⟨"DLQManager", horder.mem_iff.mpr (by simp [initialized]), keyNeedsClient_iff.mpr (.inl rfl)⟩
    obtain ⟨_, hfails, -⟩ := fails_resolveAll depth hbound hneeds {} registered_init
    exact congrArg Prod.fst hfails
  · have hempty := empty_of_run hrun
    exact ⟨hempty.facades, hempty.called⟩

theorem not_constructed_mail :
    ((resolveAll 4 initialized.reverse).run {}).1 = .error "Queue client not initialized" ∧
      ∃ w, (system 4 fun _ f => f.2).runFrom {} [.new { name := "mail" }] = some w ∧
        w.thrown = ["Queue client not initialized"] ∧ w.facades = [] ∧ w.called = [] := by
  obtain ⟨-, horder, hruns⟩ := not_constructed 0 { name := "mail" }
  have hthrown : ((system 4 fun _ f => f.2).runFrom {} [.new { name := "mail" }]).map
      World.thrown = some ["Queue client not initialized"] := by decide +kernel
  obtain ⟨w, hrun, hthrown⟩ := Option.map_eq_some_iff.mp hthrown
  exact ⟨horder _ initialized.reverse_perm, w, hrun, hthrown, hruns _ _ _ w hrun⟩

/-- The constructor does not return for a queue with a name and nothing else. -/
theorem not_isOk_new_mail :
    ¬ ((JobQueueFacade.new 4 { name := "mail" }).1.isOk = true ∧
      ∀ order, order.Perm initialized → ((resolveAll 4 order).run {}).1.isOk = true) := by
  rintro ⟨hok, -⟩
  exact absurd hok (by decide +kernel)

end KitiumJobQueue.Facade
