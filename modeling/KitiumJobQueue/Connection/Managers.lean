import KitiumJobQueue.Foundations.Handles
import KitiumJobQueue.Foundations.Systems

/-!
# The connection managers

`QueueConnectionManager` with the `RedisConnectionManager` it is constructed with and the adapter it
makes at each `connect`. A method that waits is cut where it does, so that the calls in flight may
be interleaved: a `Phase` says what a call waits for, and `Phase.resume` is the code from there to
the next await.

Connections and queue clients are known by their numbers. Two ledgers count those that were created
and list those for which `quit` or `close` was called, whether or not that call has failed.
-/

namespace KitiumJobQueue.Connection

/-- `BullMQAdapter` -/
structure BullMQAdapter where
  redisConnection : Option ℕ := none

/-- The fields of a `RedisConnectionManager` (`connection`) and of a `QueueConnectionManager`, and
what was created. `workers` has been several arrays, one after another; these are their lengths. -/
structure Managers where
  connection : Option ℕ := none
  queueClient : Option ℕ := none
  workers : List ℕ := [0]
  adapter : Option BullMQAdapter := none
  isConnected : Bool := false
  connections : Ledger := {}
  queueClients : Ledger := {}

/-- What a call in flight waits for. -/
inductive Phase
  /-- `connect`: for the connection that `RedisConnectionManager.connect` had already. -/
  | reusing
  /-- `connect`: for a new connection to be ready. -/
  | waitingForReady
  /-- `disconnect`: for a worker to close; the next one has the number `next` in the array. -/
  | closingWorker (array next : ℕ)
  /-- `disconnect`: for the queue client to close. -/
  | closingQueueClient
  /-- `disconnect`: for the connection to quit. -/
  | quitting
  /-- `disconnect`: for `RedisConnectionManager.disconnect`, which has returned. -/
  | redisDisconnected
  deriving DecidableEq

/-- What the code cannot decide: whether the connection that is held has the status `ready`, whether
what was waited for resolves, and whether `new ioredis` and `new BullMQQueueClient` return. -/
structure Outcome where
  ready : Bool := false
  resolves : Bool := true
  connectionCreated : Bool := true
  queueClientCreated : Bool := true
  deriving DecidableEq

/-- What a call does up to its next await: what it waits for then, unless it has settled, and the
managers. -/
abbrev Progress := Option Phase × Managers

namespace Managers

variable (m : Managers)

/-! ## Connecting -/

/-- `RedisConnectionManager.connect` -/
def redisConnect (o : Outcome) : Progress :=
  if m.connection.isSome ∧ o.ready = true then (some .reusing, m)
  else if o.connectionCreated then
    (some .waitingForReady,
      { m with
        connection := some m.connections.opened
        connections := m.connections.next })
  else (none, m)

/-- `QueueConnectionManager.connect`, up to its await. -/
def connect (o : Outcome) : Progress :=
  if m.isConnected = true ∧ m.queueClient.isSome then (none, m) else m.redisConnect o

/-- `BullMQAdapter.getOrCreateRedisConnection` of the adapter that is held. -/
def getOrCreateRedisConnection (a : BullMQAdapter) (o : Outcome) : Option Managers :=
  if a.redisConnection.isSome then some m
  else if o.connectionCreated then
    some
      { m with
        adapter := some { redisConnection := some m.connections.opened }
        connections := m.connections.next }
  else none

/-- `BullMQAdapter.createQueue` of the adapter that is held, and what `connect` does after it. -/
def createQueue (a : BullMQAdapter) (o : Outcome) : Managers :=
  match m.getOrCreateRedisConnection a o with
  | none => m
  | some m' =>
    if o.queueClientCreated then
      { m' with
        queueClient := some m'.queueClients.opened
        queueClients := m'.queueClients.next
        isConnected := true }
    else m'

/-- `QueueConnectionManager.connect`, from its await. -/
def connected (o : Outcome) : Managers :=
  if o.resolves then { m with adapter := some {} }.createQueue {} o else m

/-- `QueueConnectionManager.registerWorker` -/
def registerWorker (o : Outcome) : Managers :=
  match m.adapter with
  | none => m
  | some a =>
    match m.getOrCreateRedisConnection a o with
    | none => m
    | some m' => { m' with workers := m'.workers.modify (m'.workers.length - 1) (· + 1) }

/-! ## Disconnecting -/

/-- `RedisConnectionManager.disconnect`, up to its await. -/
def redisDisconnect : Progress :=
  match m.connection with
  | none => (some .redisDisconnected, m)
  | some connection =>
    (some .quitting, { m with connections := m.connections.release connection })

/-- `this.workers = []` -/
def noWorkers : Managers := { m with workers := m.workers ++ [0] }

/-- `QueueConnectionManager.disconnect`, from the end of its loop over the workers. -/
def closeQueueClient : Progress :=
  match m.queueClient with
  | none => m.noWorkers.redisDisconnect
  | some queueClient =>
    (some .closingQueueClient,
      { m.noWorkers with queueClients := m.queueClients.release queueClient })

/-- A round of the loop of `disconnect` over the workers in an array. -/
def closeWorkers (array next : ℕ) : Progress :=
  if next < m.workers.getD array 0 then (some (.closingWorker array (next + 1)), m)
  else m.closeQueueClient

/-- `QueueConnectionManager.disconnect`, up to its first await. -/
def disconnect : Progress := m.closeWorkers (m.workers.length - 1) 0

/-- `RedisConnectionManager.disconnect`, from its await: the field is set to `null` also when `quit`
has failed. -/
def redisDisconnected : Managers := { m with connection := none }

/-- `QueueConnectionManager.disconnect`, from its last await. -/
def disconnected : Managers :=
  { m with queueClient := none, adapter := none, isConnected := false }

/-- `QueueConnectionManager.reset` -/
def reset : Managers :=
  { m.noWorkers with
    queueClient := none
    adapter := none
    isConnected := false
    connection := none }

end Managers

/-- A call goes on from what it was waiting for. Failures of `close` and `quit` are caught. -/
def Phase.resume (m : Managers) (o : Outcome) : Phase → Option Progress
  | .reusing => if o.resolves then some (none, m.connected o) else none
  | .waitingForReady => some (none, m.connected o)
  | .closingWorker array next => some (m.closeWorkers array next)
  | .closingQueueClient => some m.redisDisconnect
  | .quitting => some (some .redisDisconnected, m.redisDisconnected)
  | .redisDisconnected => some (none, m.disconnected)

/-! ## Runs -/

/-- The managers, the calls in flight, and whether a `disconnect` has resolved and no `connect` or
`registerWorker` was called since. -/
structure World where
  managers : Managers := {}
  inFlight : List Phase := []
  disconnected : Bool := false

/-- A call is made, or one in flight goes on. -/
inductive Event
  | connect (o : Outcome)
  | registerWorker (o : Outcome)
  | disconnect
  | resume (call : ℕ) (o : Outcome)
  deriving DecidableEq

/-- A call has come to its next await, while the others wait. -/
def World.after (others : List Phase) (p : Progress) (disconnected : Bool) : World where
  managers := p.2
  inFlight := p.1.toList ++ others
  disconnected := disconnected

/-- A call in flight goes on. -/
def World.resume (w : World) (call : ℕ) (o : Outcome) : Option World :=
  match w.inFlight[call]? with
  | none => none
  | some phase =>
    (phase.resume w.managers o).map fun p =>
      .after (w.inFlight.eraseIdx call) p (w.disconnected = true ∨ phase = .redisDisconnected)

/-- The managers under any interleaving of calls. -/
def system : System World Event where
  step w
    | .connect o => some (.after w.inFlight (w.managers.connect o) false)
    | .registerWorker o => some (.after w.inFlight (none, w.managers.registerWorker o) false)
    | .disconnect => some (.after w.inFlight w.managers.disconnect w.disconnected)
    | .resume call o => w.resume call o

/-! ## What a step does -/

namespace Managers

/-- A `connect` has `RedisConnectionManager` create a connection. -/
def Creates (m : Managers) (o : Outcome) : Prop :=
  ¬ (m.isConnected = true ∧ m.queueClient.isSome) ∧
    ¬ (m.connection.isSome ∧ o.ready = true) ∧ o.connectionCreated = true

instance (m : Managers) (o : Outcome) : Decidable (m.Creates o) :=
  inferInstanceAs (Decidable (_ ∧ _ ∧ _))

/-- `RedisConnectionManager` has created a connection. -/
abbrev created (m : Managers) : Managers :=
  { m with
    connection := some m.connections.opened
    connections := m.connections.next }

/-- The adapter has created a connection. -/
abbrev adapterCreated (m : Managers) : Managers :=
  { m with
    adapter := some { redisConnection := some m.connections.opened }
    connections := m.connections.next }

variable (m : Managers) (o : Outcome)

theorem connect_cases :
    (m.connect o).2 = m ∧ ((m.connect o).1 = none ∨ (m.connect o).1 = some .reusing) ∨
      m.Creates o ∧ m.connect o = (some .waitingForReady, m.created) := by
  unfold connect redisConnect
  split
  · exact .inl ⟨rfl, .inl rfl⟩
  · next hconnected =>
    split
    · exact .inl ⟨rfl, .inr rfl⟩
    · next hready =>
      split
      · next hcreated => exact .inr ⟨⟨hconnected, hready, hcreated⟩, rfl⟩
      · exact .inl ⟨rfl, .inl rfl⟩

/-- A `connect` makes a new adapter, and has it create a connection, unless something fails. -/
theorem connected_cases :
    ¬ (o.resolves = true ∧ o.connectionCreated = true) ∧
        (m.connected o = m ∨ m.connected o = { m with adapter := some {} }) ∨
      (o.resolves = true ∧ o.connectionCreated = true) ∧
        (o.queueClientCreated = false ∧ m.connected o = m.adapterCreated ∨
          o.queueClientCreated = true ∧ m.connected o =
            { m.adapterCreated with
              queueClient := some m.queueClients.opened
              queueClients := m.queueClients.next
              isConnected := true }) := by
  unfold connected createQueue getOrCreateRedisConnection
  cases o.resolves with
  | false => exact .inl ⟨fun h => absurd h.1 Bool.false_ne_true, .inl rfl⟩
  | true =>
    cases o.connectionCreated with
    | false => exact .inl ⟨fun h => absurd h.2 Bool.false_ne_true, .inr rfl⟩
    | true =>
      cases o.queueClientCreated with
      | false => exact .inr ⟨⟨rfl, rfl⟩, .inl ⟨rfl, rfl⟩⟩
      | true => exact .inr ⟨⟨rfl, rfl⟩, .inr ⟨rfl, rfl⟩⟩

/-- A new worker has the connection of the adapter, which is created if there is none. -/
theorem registerWorker_cases :
    m.registerWorker o = m ∨ (∃ workers, m.registerWorker o = { m with workers := workers }) ∨
      ∃ a ∈ m.adapter, a.redisConnection = none ∧ o.connectionCreated = true ∧
        ∃ workers, m.registerWorker o = { m.adapterCreated with workers := workers } := by
  unfold registerWorker
  split
  · exact .inl rfl
  · next a ha =>
    unfold getOrCreateRedisConnection
    cases hnone : a.redisConnection with
    | some connection => exact .inr (.inl ⟨_, rfl⟩)
    | none =>
      cases hcreated : o.connectionCreated with
      | false => exact .inl rfl
      | true => exact .inr (.inr ⟨a, ha, hnone, rfl, _, rfl⟩)

theorem redisDisconnect_cases :
    m.connection = none ∧ m.redisDisconnect = (some .redisDisconnected, m) ∨
      ∃ connection, m.connection = some connection ∧ m.redisDisconnect =
        (some .quitting, { m with connections := m.connections.release connection }) := by
  unfold redisDisconnect
  split
  · next hnone => exact .inl ⟨hnone, rfl⟩
  · next connection hconnection => exact .inr ⟨connection, hconnection, rfl⟩

theorem closeWorkers_cases (array next : ℕ) :
    (∃ next', m.closeWorkers array next = (some (.closingWorker array next'), m)) ∨
      (∃ queueClient, m.queueClient = some queueClient ∧ m.closeWorkers array next =
        (some .closingQueueClient,
          { m.noWorkers with queueClients := m.queueClients.release queueClient })) ∨
      m.queueClient = none ∧ m.closeWorkers array next = m.noWorkers.redisDisconnect := by
  unfold closeWorkers closeQueueClient
  split
  · exact .inl ⟨next + 1, rfl⟩
  · split
    · next hnone => exact .inr (.inr ⟨hnone, rfl⟩)
    · next queueClient hclient => exact .inr (.inl ⟨queueClient, hclient, rfl⟩)

end Managers

/-- A call that waits in `connect` goes on with `connected`. -/
theorem Phase.resume_connect {m : Managers} {o : Outcome} {phase : Phase} {p : Progress}
    (h : phase.resume m o = some p) (hphase : phase = .reusing ∨ phase = .waitingForReady) :
    p = (none, m.connected o) := by
  rcases hphase with rfl | rfl
  · rw [Phase.resume] at h
    split at h
    · exact (Option.some.inj h).symm
    · exact absurd h (Option.some_ne_none p).symm
  · exact (Option.some.inj h).symm

/-- What the resumption of a call does. -/
theorem World.resume_eq_some {w w' : World} {call : ℕ} {o : Outcome}
    (h : w.resume call o = some w') :
    ∃ phase p, w.inFlight[call]? = some phase ∧ phase.resume w.managers o = some p ∧
      w' = .after (w.inFlight.eraseIdx call) p
        (w.disconnected = true ∨ phase = .redisDisconnected) := by
  unfold World.resume at h
  split at h
  · exact absurd h (Option.some_ne_none w').symm
  · next phase hphase =>
    obtain ⟨p, hp, rfl⟩ := Option.map_eq_some_iff.mp h
    exact ⟨phase, p, hphase, hp, rfl⟩

end KitiumJobQueue.Connection
