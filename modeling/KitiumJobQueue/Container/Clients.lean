import KitiumJobQueue.Container.Bindings
import KitiumJobQueue.Foundations.Systems

/-!
# The queue client that a service calls

A service that was given a queue client is kept in the container, and by whoever resolved it. Each
call it makes is to go to the client that `QueueConnectionManager.getQueueClient` returns at that
time (`Call.Follows`). `follows_of_run` says that it does as long as the client is replaced only
while no service has one.
-/

namespace KitiumJobQueue.Services

open Effects
open Connection (Outcome Phase)

/-! ## Runs -/

/-- A call that an operation of a service makes: to which client, what `getQueueClient` returns at
that time, and whether the client does what it is asked. -/
structure Call where
  client : ℕ
  current : Option ℕ
  answered : Bool
  deriving DecidableEq

/-- The call goes to the client that there is, or fails if there is none. -/
def Call.Follows (call : Call) : Prop :=
  call.current = some call.client ∨ call.current = none ∧ call.answered = false

instance (call : Call) : Decidable call.Follows := inferInstanceAs (Decidable (_ ∨ _))

/-- The container and the managers, the services that `resolve` has returned, and the calls that
these have made. -/
structure World extends Application where
  handedOut : List Service := []
  calls : List Call := []

/-- A step of the connection managers, a `reset` of them, a `resolve`, or a call of a service. -/
inductive Event
  | connection (e : Connection.Event)
  | reset
  | resolve (key : String)
  | call (service : Service) (client : ℕ) (answered : Bool)
  deriving DecidableEq

/-- A `resolve` is over. -/
def World.resolved (w : World) : Except String Service × Application → World
  | (.error _, app) => { w with toApplication := app }
  | (.ok service, app) => { w with toApplication := app, handedOut := service :: w.handedOut }

/-- The services under any sequence of calls. -/
def system (depth : ℕ) : System World Event where
  step w
    | .connection e =>
      (Connection.system.step w.connections e).map fun connections =>
        { w with connections := connections }
    | .reset =>
      some { w with
        connections := { w.connections with
          managers := w.connections.managers.reset
          disconnected := false } }
    | .resolve key => some (w.resolved ((resolve depth key).run w.toApplication))
    | .call service client answered =>
      if service ∈ w.handedOut ∧ client ∈ service.clients then
        some { w with calls := ⟨client, w.getQueueClient, answered⟩ :: w.calls }
      else none

/-! ## The condition -/

/-- A service that is cached or was handed out has a queue client. -/
def World.Held (w : World) : Prop :=
  ∃ service ∈ w.container.singletons.values ++ w.handedOut, service.clients ≠ []

instance (w : World) : Decidable w.Held :=
  inferInstanceAs (Decidable (∃ service ∈ w.container.singletons.values ++ w.handedOut,
    service.clients ≠ []))

/-- A call in flight goes on to replace the queue client: a `connect` that succeeds, or a
`disconnect` that comes to its end. -/
def Replaces (o : Outcome) : Phase → Prop
  | .reusing | .waitingForReady =>
    o.resolves = true ∧ o.connectionCreated = true ∧ o.queueClientCreated = true
  | .redisDisconnected => True
  | .closingWorker _ _ | .closingQueueClient | .quitting => False

instance (o : Outcome) : DecidablePred (Replaces o)
  | .reusing | .waitingForReady => inferInstanceAs (Decidable (_ ∧ _ ∧ _))
  | .redisDisconnected => inferInstanceAs (Decidable True)
  | .closingWorker _ _ | .closingQueueClient | .quitting => inferInstanceAs (Decidable False)

/-- The queue client is replaced only while no service has one. -/
def Careful (w : World) : Event → Prop
  | .connection (.resume call o) =>
    (∃ phase ∈ w.connections.inFlight[call]?, Replaces o phase) → ¬ w.Held
  | .reset => ¬ w.Held
  | .connection (.connect _) | .connection (.registerWorker _) | .connection .disconnect => True
  | .resolve _ | .call _ _ _ => True

instance (w : World) : (e : Event) → Decidable (Careful w e)
  | .connection (.resume _ _) => inferInstanceAs (Decidable (_ → _))
  | .reset => inferInstanceAs (Decidable (¬ w.Held))
  | .connection (.connect _) | .connection (.registerWorker _) | .connection .disconnect =>
    inferInstanceAs (Decidable True)
  | .resolve _ | .call _ _ _ => inferInstanceAs (Decidable True)

/-! ## What is given to a service -/

/-- The service has no queue client but `current`. -/
def Given (current : Option ℕ) (service : Service) : Prop :=
  ∀ client ∈ service.clients, current = some client

/-- The services of the container have the queue client of these managers. -/
def Fresh (connections : Connection.World) (app : Application) : Prop :=
  app.connections = connections ∧
    ∀ service ∈ app.container.singletons.values, Given app.getQueueClient service

section Resolve

variable {connections : Connection.World}

theorem Fresh.getQueueClient_eq {app : Application} (h : Fresh connections app) :
    app.getQueueClient = connections.managers.queueClient := by
  rw [Application.getQueueClient, h.1]

theorem Fresh.keep {app : Application} (h : Fresh connections app) (key : String)
    {service : Service} (hservice : Given connections.managers.queueClient service) :
    Fresh connections { app with container := app.container.keep key service } := by
  refine ⟨h.1, fun service' hmem => ?_⟩
  obtain ⟨k, hk⟩ := InsertionMap.mem_values.mp hmem
  rw [Container.DIContainer.get_singletons_keep] at hk
  split at hk
  · obtain rfl := Option.some.inj hk
    show Given app.getQueueClient service
    rw [h.getQueueClient_eq]
    exact hservice
  · exact h.2 service' (InsertionMap.mem_values.mpr ⟨k, hk⟩)

theorem yields_queueClient :
    Async.Yields (Fresh connections) (fun client => connections.managers.queueClient = some client)
      queueClient := by
  refine Async.Yields.read_bind fun app happ => ?_
  split
  · exact .throw _
  · next client hclient => exact .pure (happ.getQueueClient_eq ▸ hclient)

variable {resolve' : String → Method Service}
  (hresolve : ∀ key, Async.Yields (Fresh connections)
    (Given connections.managers.queueClient) (resolve' key))

include hresolve

/-- A factory gives a service the client that there is. -/
theorem yields_run (factory : Factory) :
    Async.Yields (Fresh connections) (Given connections.managers.queueClient)
      (factory.run resolve') := by
  cases factory with
  | construct className dependencies =>
    have hall : Async.Yields (Fresh connections) (fun _ => True) (dependencies.forM fun key => do
        let _ ← resolve' key) :=
      .forM fun key _ => (hresolve key).bind fun _ _ => .pure trivial
    exact hall.bind fun _ _ => .pure fun client hclient => absurd hclient List.not_mem_nil
  | dlqManager =>
    refine (hresolve _).bind fun _ _ => yields_queueClient.bind fun primaryQueue hprimary =>
      (hresolve _).bind fun _ _ => (hresolve _).bind fun _ _ => .pure fun client hclient => ?_
    obtain rfl := List.mem_singleton.mp hclient
    exact hprimary
  | jobStatusQueryService =>
    refine (hresolve _).bind fun _ _ => yields_queueClient.bind fun queueClient hqueue =>
      (hresolve _).bind fun _ _ => (hresolve _).bind fun dlq hdlq => .pure fun client hclient => ?_
    rcases List.mem_cons.mp hclient with rfl | hclient
    · exact hqueue
    · exact hdlq client hclient

omit hresolve

theorem yields_resolve (depth : ℕ) (key : String) :
    Async.Yields (Fresh connections) (Given connections.managers.queueClient)
      (resolve depth key) := by
  refine yields_resolve_of (P := fun _ => Given connections.managers.queueClient) ?_ ?_ ?_ depth key
  · intro app key service happ hlookup
    rw [← happ.getQueueClient_eq]
    refine happ.2 service (InsertionMap.mem_values.mpr ⟨key, ?_⟩)
    exact Container.DIContainer.lookup_eq_cached hlookup
  · exact fun _ _ factory _ _ _ hresolve => yields_run hresolve factory
  · exact fun _ key _ happ hservice => happ.keep key hservice

end Resolve

/-! ## What replaces the queue client -/

section Connections

open Connection (Managers Progress)

/-- The queue client is the same, and none was created. -/
structure SameClient (m m' : Managers) : Prop where
  queueClient : m'.queueClient = m.queueClient
  opened : m'.queueClients.opened = m.queueClients.opened

variable {m : Managers} {o : Outcome}

theorem sameClient_connect (m : Managers) (o : Outcome) : SameClient m (m.connect o).2 := by
  rcases m.connect_cases o with ⟨heq, -⟩ | ⟨-, heq⟩ <;> rw [heq] <;> exact ⟨rfl, rfl⟩

theorem sameClient_connected
    (h : ¬ (o.resolves = true ∧ o.connectionCreated = true ∧ o.queueClientCreated = true)) :
    SameClient m (m.connected o) := by
  rcases m.connected_cases o with ⟨-, heq | heq⟩ | ⟨hcreated, ⟨-, heq⟩ | ⟨hclient, -⟩⟩
  · rw [heq]
    exact ⟨rfl, rfl⟩
  · rw [heq]
    exact ⟨rfl, rfl⟩
  · rw [heq]
    exact ⟨rfl, rfl⟩
  · exact absurd ⟨hcreated.1, hcreated.2, hclient⟩ h

/-- A `connect` that succeeds has created a queue client. -/
theorem created_connected
    (h : o.resolves = true ∧ o.connectionCreated = true ∧ o.queueClientCreated = true) :
    (m.connected o).queueClient = some m.queueClients.opened ∧
      (m.connected o).queueClients.opened = m.queueClients.opened + 1 := by
  rcases m.connected_cases o with ⟨hnot, -⟩ | ⟨-, ⟨hfails, -⟩ | ⟨-, heq⟩⟩
  · exact absurd ⟨h.1, h.2.1⟩ hnot
  · exact absurd (h.2.2.symm.trans hfails) (by decide)
  · rw [heq]
    exact ⟨rfl, rfl⟩

theorem sameClient_registerWorker (m : Managers) (o : Outcome) :
    SameClient m (m.registerWorker o) := by
  rcases m.registerWorker_cases o with heq | ⟨_, heq⟩ | ⟨_, -, -, -, _, heq⟩ <;> rw [heq] <;>
    exact ⟨rfl, rfl⟩

theorem sameClient_redisDisconnect (m : Managers) : SameClient m m.redisDisconnect.2 := by
  rcases m.redisDisconnect_cases with ⟨-, heq⟩ | ⟨_, -, heq⟩ <;> rw [heq] <;> exact ⟨rfl, rfl⟩

theorem sameClient_closeWorkers (m : Managers) (array next : ℕ) :
    SameClient m (m.closeWorkers array next).2 := by
  rcases m.closeWorkers_cases array next with ⟨_, heq⟩ | ⟨_, -, heq⟩ | ⟨-, heq⟩ <;> rw [heq]
  · exact ⟨rfl, rfl⟩
  · exact ⟨rfl, rfl⟩
  · have hsame := sameClient_redisDisconnect m.noWorkers
    exact ⟨hsame.queueClient, hsame.opened⟩

theorem sameClient_resume {phase : Phase} {p : Progress} (hnot : ¬ Replaces o phase)
    (h : phase.resume m o = some p) : SameClient m p.2 := by
  cases phase with
  | reusing => exact Phase.resume_connect h (.inl rfl) ▸ sameClient_connected hnot
  | waitingForReady => exact Phase.resume_connect h (.inr rfl) ▸ sameClient_connected hnot
  | closingWorker array next => exact Option.some.inj h ▸ sameClient_closeWorkers m array next
  | closingQueueClient => exact Option.some.inj h ▸ sameClient_redisDisconnect m
  | quitting => exact Option.some.inj h ▸ ⟨rfl, rfl⟩
  | redisDisconnected => exact absurd trivial hnot

/-- Where the queue client is replaced it is by a new one, or there is none after that. -/
theorem replaced_resume {phase : Phase} {p : Progress} (hreplaces : Replaces o phase)
    (h : phase.resume m o = some p) :
    p.2.queueClient = none ∨ p.2.queueClient = some m.queueClients.opened ∧
      p.2.queueClients.opened = m.queueClients.opened + 1 := by
  cases phase with
  | reusing => exact Phase.resume_connect h (.inl rfl) ▸ .inr (created_connected hreplaces)
  | waitingForReady => exact Phase.resume_connect h (.inr rfl) ▸ .inr (created_connected hreplaces)
  | closingWorker | closingQueueClient | quitting => exact hreplaces.elim
  | redisDisconnected => exact Option.some.inj h ▸ .inl rfl

end Connections

/-! ## The run -/

/-- The services have the queue client that there is, and their calls went to the one there was. -/
structure Sound (w : World) : Prop where
  given : ∀ service ∈ w.container.singletons.values ++ w.handedOut, Given w.getQueueClient service
  known : ∀ client ∈ w.getQueueClient, client < w.connections.managers.queueClients.opened
  follows : ∀ call ∈ w.calls, call.Follows

variable {w w' : World}

theorem sound_init : Sound {} where
  given service hmem := by
    have hnone : (registerJobQueueBindings {}).singletons.values ++ [] = [] := rfl
    exact absurd (hnone ▸ hmem) List.not_mem_nil
  known client hclient := absurd hclient (Option.some_ne_none client).symm
  follows _ hmem := absurd hmem List.not_mem_nil

section Steps

variable {connections : Connection.World}

theorem sound_sameClient (hw : Sound w)
    (h : SameClient w.connections.managers connections.managers) :
    Sound { w with connections := connections } := by
  refine ⟨fun service hmem => ?_, fun client hclient => ?_, hw.follows⟩
  · show Given connections.managers.queueClient service
    rw [h.queueClient]
    exact hw.given service hmem
  · show client < connections.managers.queueClients.opened
    rw [h.opened]
    exact hw.known client (h.queueClient.symm.trans hclient)

/-- While no service has a queue client it may be replaced. -/
theorem sound_replaced (hw : Sound w) (hheld : ¬ w.Held)
    (hknown : ∀ client ∈ connections.managers.queueClient,
      client < connections.managers.queueClients.opened) :
    Sound { w with connections := connections } := by
  refine ⟨fun service hmem client hclient => ?_, hknown, hw.follows⟩
  exact absurd ⟨service, hmem, List.ne_nil_of_mem hclient⟩ hheld

theorem sound_connection (hw : Sound w) {e : Connection.Event}
    (hcareful : Careful w (.connection e))
    (h : Connection.system.step w.connections e = some connections) :
    Sound { w with connections := connections } := by
  cases e with
  | connect o => exact sound_sameClient hw (Option.some.inj h ▸ sameClient_connect _ o)
  | registerWorker o =>
    exact sound_sameClient hw (Option.some.inj h ▸ sameClient_registerWorker _ o)
  | disconnect => exact sound_sameClient hw (Option.some.inj h ▸ sameClient_closeWorkers _ _ 0)
  | resume call o =>
    obtain ⟨phase, p, hphase, hp, rfl⟩ := Connection.World.resume_eq_some h
    by_cases hreplaces : Replaces o phase
    · refine sound_replaced hw (hcareful ⟨phase, hphase, hreplaces⟩) fun client hclient => ?_
      rcases replaced_resume hreplaces hp with hnone | ⟨hsome, hopened⟩
      · exact absurd (hclient.symm.trans hnone) (Option.some_ne_none client)
      · obtain rfl := Option.some.inj (hsome.symm.trans hclient)
        show _ < p.2.queueClients.opened
        rw [hopened]
        exact Nat.lt_succ_self _
    · exact sound_sameClient hw (sameClient_resume hreplaces hp)

end Steps

theorem sound_resolved (hw : Sound w) (depth : ℕ) (key : String) :
    Sound (w.resolved ((resolve depth key).run w.toApplication)) := by
  have hfresh : Fresh w.connections w.toApplication :=
    ⟨rfl, fun service hmem => hw.given service (List.mem_append_left _ hmem)⟩
  obtain ⟨hfresh', hreturned⟩ := yields_resolve depth key w.toApplication hfresh
  cases hrun : (resolve depth key).run w.toApplication with
  | mk r app =>
    rw [hrun] at hfresh' hreturned
    obtain ⟨hconnections, hcached⟩ := hfresh'
    have hsame : app.getQueueClient = w.getQueueClient := by
      rw [Application.getQueueClient, hconnections]
      rfl
    have hgiven : ∀ service ∈ app.container.singletons.values ++ w.handedOut,
        Given app.getQueueClient service := by
      intro service hmem
      rcases List.mem_append.mp hmem with hmem | hmem
      · exact hcached service hmem
      · rw [hsame]
        exact hw.given service (List.mem_append_right _ hmem)
    have hknown : ∀ client ∈ app.getQueueClient,
        client < app.connections.managers.queueClients.opened := by
      rw [hsame, hconnections]
      exact hw.known
    cases r with
    | error e => exact ⟨hgiven, hknown, hw.follows⟩
    | ok returned =>
      refine ⟨fun service hmem => ?_, hknown, hw.follows⟩
      rcases List.mem_append.mp hmem with hmem | hmem
      · exact hgiven service (List.mem_append_left _ hmem)
      · rcases List.mem_cons.mp hmem with rfl | hmem
        · exact hsame ▸ hreturned _ rfl
        · exact hgiven service (List.mem_append_right _ hmem)

theorem sound_step {depth : ℕ} {e : Event} (hw : Sound w) (hcareful : Careful w e)
    (h : (system depth).step w e = some w') : Sound w' := by
  cases e with
  | connection e =>
    obtain ⟨connections, hconnections, rfl⟩ := Option.map_eq_some_iff.mp h
    exact sound_connection hw hcareful hconnections
  | reset =>
    exact Option.some.inj h ▸ sound_replaced hw hcareful fun client hclient =>
      absurd hclient (Option.some_ne_none client).symm
  | resolve key => exact Option.some.inj h ▸ sound_resolved hw depth key
  | call service client answered =>
    simp only [system] at h
    split at h
    · next hcall =>
      obtain rfl := Option.some.inj h
      refine ⟨hw.given, hw.known, List.forall_mem_cons.mpr ⟨?_, hw.follows⟩⟩
      exact .inl (hw.given service (List.mem_append_right _ hcall.1) client hcall.2)
    · exact absurd h (Option.some_ne_none w').symm

theorem sound_of_careful {depth : ℕ} {es : List Event}
    (hcareful : (system depth).StepsMeet Careful {} es)
    (hrun : (system depth).runFrom {} es = some w) : Sound w :=
  System.invariant_of_stepsMeet (fun _ _ _ hw hc hs => sound_step hw hc hs) sound_init hcareful hrun

/-- **In a run in which the queue client is replaced only while no service has one, the services
call the client that there is.** -/
theorem follows_of_run (depth : ℕ) (es : List Event)
    (hcareful : (system depth).StepsMeet Careful {} es)
    (hrun : (system depth).runFrom {} es = some w) : ∀ call ∈ w.calls, call.Follows :=
  (sound_of_careful hcareful hrun).follows

/-- The services are resolved when the second client is there. -/
def reconnected : List Event :=
  [.resolve "DLQManager", .connection (.connect {}), .connection (.resume 0 {}),
    .connection .disconnect, .connection (.resume 0 {}), .connection (.resume 0 {}),
    .connection (.resume 0 {}), .connection (.connect {}), .connection (.resume 0 {}),
    .resolve "JobStatusQueryService", .resolve "DLQManager",
    .call (.jobStatusQueryService 1 (.dlqManager 1)) 1 true, .call (.dlqManager 1) 1 true]

theorem follows_reconnected :
    ∃ w : World, (system 5).runFrom {} reconnected = some w ∧
      w.calls = [⟨1, some 1, true⟩, ⟨1, some 1, true⟩] ∧ ∀ call ∈ w.calls, call.Follows := by
  have hcalls : ((system 5).runFrom {} reconnected).map World.calls =
      some [⟨1, some 1, true⟩, ⟨1, some 1, true⟩] := by decide +kernel
  obtain ⟨w, hrun, hcalls⟩ := Option.map_eq_some_iff.mp hcalls
  exact ⟨w, hrun, hcalls, follows_of_run 5 reconnected (by decide +kernel) hrun⟩

/-- A service that was resolved before the managers reconnect calls the first client. -/
theorem not_follows_reconnected :
    ¬ ∀ (es : List Event) (w : World), (system 5).runFrom {} es = some w →
      ∀ call ∈ w.calls, call.Follows := by
  intro hclaim
  have hcalls : ((system 5).runFrom {}
      [.connection (.connect {}), .connection (.resume 0 {}), .resolve "DLQManager",
        .connection .disconnect, .connection (.resume 0 {}), .connection (.resume 0 {}),
        .connection (.resume 0 {}), .connection (.connect {}), .connection (.resume 0 {}),
        .resolve "DLQManager", .call (.dlqManager 0) 0 false]).map World.calls =
      some [⟨0, some 1, false⟩] := by decide +kernel
  obtain ⟨w, hrun, hcalls⟩ := Option.map_eq_some_iff.mp hcalls
  have hfollows := hclaim _ w hrun
  rw [hcalls] at hfollows
  exact absurd (hfollows _ List.mem_cons_self) (by decide)

/-! ## The condition is needed -/

/-- After a careless step some service has a queue client that is not the one there is. -/
theorem exists_not_given (hw : Sound w) {depth : ℕ} {e : Event} (hcareless : ¬ Careful w e)
    (h : (system depth).step w e = some w') :
    ∃ service ∈ w'.container.singletons.values ++ w'.handedOut,
      ¬ Given w'.getQueueClient service := by
  have hlost : w.Held → (∀ client ∈ w.getQueueClient, w'.getQueueClient ≠ some client) →
      ∃ service ∈ w.container.singletons.values ++ w.handedOut,
        ¬ Given w'.getQueueClient service := by
    rintro ⟨service, hmem, hclients⟩ hother
    obtain ⟨client, hclient⟩ := List.exists_mem_of_ne_nil _ hclients
    exact ⟨service, hmem, fun hgiven =>
      hother client (hw.given service hmem client hclient) (hgiven client hclient)⟩
  cases e with
  | connection e =>
    obtain ⟨connections, hconnections, rfl⟩ := Option.map_eq_some_iff.mp h
    cases e with
    | connect | registerWorker | disconnect => exact absurd trivial hcareless
    | resume call o =>
      obtain ⟨⟨phase, hphase, hreplaces⟩, hheld⟩ := Classical.not_imp.mp hcareless
      obtain ⟨phase', p, hphase', hp, rfl⟩ := Connection.World.resume_eq_some hconnections
      obtain rfl := Option.some.inj (hphase.symm.trans hphase')
      refine hlost (not_not.mp hheld) fun client hclient hsame => ?_
      rcases replaced_resume hreplaces hp with hnone | ⟨hsome, -⟩
      · exact absurd (hsame.symm.trans hnone) (Option.some_ne_none client)
      · obtain rfl := Option.some.inj (hsome.symm.trans hsame)
        exact Nat.lt_irrefl _ (hw.known _ hclient)
  | reset =>
    obtain rfl := Option.some.inj h
    exact hlost (not_not.mp hcareless) fun client _ hsame =>
      absurd hsame (Option.some_ne_none client).symm
  | resolve | call => exact absurd trivial hcareless

end KitiumJobQueue.Services
