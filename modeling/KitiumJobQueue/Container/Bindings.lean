import KitiumJobQueue.Connection.Managers
import KitiumJobQueue.Container.Basic
import KitiumJobQueue.Foundations.Effects

/-!
# The services of the container

`registerJobQueueBindings` and what `resolve` makes of the factories it registers. `DLQManager` and
`JobStatusQueryService` are given the queue client that `QueueConnectionManager` has when they are
made, and call it from then on.
-/

namespace KitiumJobQueue.Services

open Container (DIContainer)
open Effects

/-! ## Services -/

/-- A service, with the queue client it was given. -/
inductive Service
  | dlqManager (primaryQueue : ℕ)
  | jobStatusQueryService (queueClient : ℕ) (dlqManager : Service)
  | other (className : String)
  deriving DecidableEq

/-- The queue clients that the operations of a service call. -/
def Service.clients : Service → List ℕ
  | .dlqManager primaryQueue => [primaryQueue]
  | .jobStatusQueryService queueClient dlq => queueClient :: dlq.clients
  | .other _ => []

/-- A factory: `construct` resolves what the constructor of the class is given. -/
inductive Factory
  | construct (className : String) (dependencies : List String)
  | dlqManager
  | jobStatusQueryService

/-! ## Registration -/

section Registration

variable (container : DIContainer Factory Service)

/-- `registerStateMapping` -/
def registerStateMapping : DIContainer Factory Service :=
  container.bindSingleton "BullMQStateMapper" (.construct "BullMQStateMapper" [])

/-- `registerFactories` -/
def registerFactories : DIContainer Factory Service :=
  container
    |>.bindSingleton "LoggerFactory" (.construct "LoggerFactory" [])
    |>.bindSingleton "JobQueueErrorFactory" (.construct "JobQueueErrorFactory" ["LoggerFactory"])
    |>.bindSingleton "JobStatusFactory" (.construct "JobStatusFactory" ["BullMQStateMapper"])
    |>.bindSingleton "JobOptionsBuilder" (.construct "JobOptionsBuilder" [])

/-- `registerRetryStrategies` -/
def registerRetryStrategies : DIContainer Factory Service :=
  container
    |>.bind "ExponentialBackoffStrategy" (.construct "ExponentialBackoffStrategy" []) none
    |>.bind "LinearBackoffStrategy" (.construct "LinearBackoffStrategy" []) none
    |>.bind "ExponentialBackoffWithJitterStrategy"
      (.construct "ExponentialBackoffWithJitterStrategy" []) none
    |>.bind "DefaultRetryStrategy" (.construct "ExponentialBackoffStrategy" []) none

/-- `registerRegistries` -/
def registerRegistries : DIContainer Factory Service :=
  container
    |>.bindSingleton "EventHandlerRegistry" (.construct "EventHandlerRegistry" [])
    |>.bindSingleton "JobProcessorRegistry" (.construct "JobProcessorRegistry" [])

/-- `registerConnections` -/
def registerConnections : DIContainer Factory Service :=
  container
    |>.bindSingleton "RedisConnectionManager" (.construct "RedisConnectionManager" [])
    |>.bindSingleton "QueueConnectionManager"
      (.construct "QueueConnectionManager" ["RedisConnectionManager"])

/-- `registerCoreServices` -/
def registerCoreServices : DIContainer Factory Service :=
  container
    |>.bindSingleton "EventCoordinator" (.construct "EventCoordinator" ["EventHandlerRegistry"])
    |>.bindSingleton "JobMetricsCollector" (.construct "JobMetricsCollector" [])
    |>.bindSingleton "JobTelemetryService" (.construct "JobTelemetryService" [])
    |>.bindSingleton "JobRetryCoordinator"
      (.construct "JobRetryCoordinator" ["DefaultRetryStrategy"])
    |>.bindSingleton "DLQManager" .dlqManager
    |>.bindSingleton "JobProcessingOrchestrator"
      (.construct "JobProcessingOrchestrator"
        ["EventCoordinator", "JobMetricsCollector", "JobTelemetryService", "JobRetryCoordinator"])
    |>.bindSingleton "JobStatusQueryService" .jobStatusQueryService

/-- `registerAdapters` -/
def registerAdapters : DIContainer Factory Service :=
  container.bindSingleton "QueueAdapter" (.construct "BullMQAdapter" [])

/-- `registerJobQueueBindings` -/
def registerJobQueueBindings : DIContainer Factory Service :=
  container |> registerStateMapping |> registerFactories |> registerRetryStrategies
    |> registerRegistries |> registerConnections |> registerCoreServices |> registerAdapters

end Registration

/-! ## Resolving -/

/-- The container and the connection managers. -/
structure Application where
  container : DIContainer Factory Service := registerJobQueueBindings {}
  connections : Connection.World := {}

/-- `QueueConnectionManager.getQueueClient` -/
def Application.getQueueClient (app : Application) : Option ℕ :=
  app.connections.managers.queueClient

/-- A computation of the container. What is thrown is known by its message. -/
abbrev Method := Async String Application

/-- The client that a factory gives to a service. -/
def queueClient : Method ℕ := do
  match ← .read Application.getQueueClient with
  | none => throw "Queue client not initialized"
  | some client => pure client

/-- A call of a factory. -/
def Factory.run (resolve : String → Method Service) : Factory → Method Service
  | .construct className dependencies => do
    dependencies.forM fun key => do
      let _ ← resolve key
    pure (.other className)
  | .dlqManager => do
    let _ ← resolve "QueueConnectionManager"
    let primaryQueue ← queueClient
    let _ ← resolve "EventCoordinator"
    let _ ← resolve "JobMetricsCollector"
    pure (.dlqManager primaryQueue)
  | .jobStatusQueryService => do
    let _ ← resolve "QueueConnectionManager"
    let client ← queueClient
    let _ ← resolve "JobStatusFactory"
    let dlqManager ← resolve "DLQManager"
    pure (.jobStatusQueryService client dlqManager)

/-- `DIContainer.resolve`. Calls are nested as deep as the stack allows. -/
def resolve : (depth : ℕ) → (key : String) → Method Service
  | 0, _ => throw "Maximum call stack size exceeded"
  | depth + 1, key => do
    match ← .read fun app => app.container.lookup key with
    | .notRegistered message => throw message
    | .cached service => pure service
    | .run factory =>
      let service ← factory.run (resolve depth)
      .modify fun app => { app with container := app.container.keep key service }
      pure service

/-- What `resolve` preserves and returns follows from what one factory does, given that the services
it resolves are as they should be, and from what keeping a service does. -/
theorem yields_resolve_of {I : Application → Prop} {P : String → Service → Prop}
    (hcached : ∀ app key service, I app → app.container.lookup key = .cached service →
      P key service)
    (hrun : ∀ app key factory (resolve' : String → Method Service), I app →
      app.container.lookup key = .run factory → (∀ k, Async.Yields I (P k) (resolve' k)) →
      Async.Yields I (P key) (factory.run resolve'))
    (hkeep : ∀ app key service, I app → P key service →
      I { app with container := app.container.keep key service })
    (depth : ℕ) (key : String) : Async.Yields I (P key) (resolve depth key) := by
  induction depth generalizing key with
  | zero => exact .throw _
  | succ depth ih =>
    refine Async.Yields.read_bind fun app happ => ?_
    split
    · exact .throw _
    · next service hlookup => exact .pure (hcached app key service happ hlookup)
    · next factory hlookup =>
      refine (hrun app key factory _ happ hlookup ih).bind fun service hservice => ?_
      exact (Async.Yields.modify fun app h => hkeep app key service h hservice).bind
        fun _ _ => .pure hservice

/-- Once there is a queue client all that is bound can be resolved, with calls nested four deep. -/
example : ∀ key ∈ (registerJobQueueBindings {}).bindings.keys,
    ((resolve 4 key).run { connections.managers.queueClient := some 0 }).1.isOk := by
  decide +kernel

end KitiumJobQueue.Services
