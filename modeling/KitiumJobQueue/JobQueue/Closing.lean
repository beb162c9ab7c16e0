import KitiumJobQueue.Config
import KitiumJobQueue.Foundations.InsertionMaps
import KitiumJobQueue.Foundations.JavaScript
import KitiumJobQueue.Foundations.LastingFacts

/-!
# Opening and closing a `JobQueue`

The constructor of `JobQueue` opens a connection, the main queue and, if it is enabled, the dead
letter queue; `process` makes a worker when it registers its first processor. `close` closes the
worker, the dead letter queue, the main queue and the connection, in this order, and stops at the
first call that is rejected. Any number of calls of both may overlap, and closing may fail with or
without effect.

The order holds in every run, and there is one worker at most (`ordered_of_run`). When a `close` has
resolved, all is closed but for a worker that was made after it was called (`released_of_run`): that
one is never closed, unless `close` is called again.
-/

namespace KitiumJobQueue.JobQueue.Closing

open Effects JavaScript

/-! ## The queue and what it has open -/

/-- What can be closed. -/
inductive Handle
  | worker (n : ℕ)
  | dlqQueue
  | queue
  | redis
  deriving DecidableEq

/-- The fields of a `JobQueue` that change, `P` being its processors. -/
structure Memory (P : Type) where
  processors : InsertionMap String P := .empty
  workers : List ℕ := []

/-- All that was asked of a handle is to close it. -/
abbrev Reply (_ : Handle) : Type := Unit

/-- What was closed. -/
structure Server where
  closed : List Handle := []

/-- `close` of a worker or a queue, and `quit` of the connection. -/
def respond (handle : Handle) (s : Server) : Unit × Server := ((), ⟨handle :: s.closed⟩)

/-- Closing may fail. -/
def serve : Serve Thrown Server (Answer Thrown) Reply :=
  fun answer handle s => (perform answer (respond handle)).run s

variable {P : Type}

/-- A method. -/
abbrev Method (P α : Type) := Coroutine Thrown (Memory P) Reply α

/-- Close a handle and wait for it. -/
def shut (handle : Handle) : Method P Unit := .await handle

/-- The error for a second processor of one name. -/
def processorExists (jobName stack : String) : JsError where
  message := "Processor for job \"" ++ jobName ++ "\" already registered"
  stack := some stack
  fields :=
    [("code", .str "queue/processor_exists"),
      ("severity", .str "error"),
      ("kind", .str "validation"),
      ("retryable", .bool false),
      ("source", .str "@kitiumai/job-queue")]

/-- A worker is made if there is none. -/
def Memory.withWorker (m : Memory P) : Memory P :=
  if m.workers.length = 0 then { m with workers := m.workers ++ [m.workers.length] } else m

/-- `JobQueue.process` -/
def process (stack jobName : String) (processor : P) : Method P Unit :=
  .act fun m =>
    if (m.processors.get jobName).isSome then (.error (.error (processorExists jobName stack)), m)
    else (.ok (), { m with processors := m.processors.set jobName processor }.withWorker)

/-- The dead letter queue is closed if there is one. -/
def shutDlqQueue (config : QueueConfig) : Method P Unit :=
  if config.isDlqEnabled then shut .dlqQueue else pure ()

/-- What `close` does with the workers it finds. Those of `Promise.all` are one at most. -/
def closeAll (config : QueueConfig) (workers : List ℕ) : Method P Unit := do
  .forEach (fun worker => shut (.worker worker)) workers
  shutDlqQueue config
  shut .queue
  shut .redis

/-- `JobQueue.close` -/
def close (config : QueueConfig) : Method P Unit := .read Memory.workers >>= closeAll config

/-! ## The system -/

/-- A call of a method. -/
inductive Call (P : Type)
  | process (stack jobName : String) (processor : P)
  | close

/-- The method a call runs. -/
def Call.method (config : QueueConfig) : Call P → Method P Unit
  | .process stack jobName processor => Closing.process stack jobName processor
  | .close => Closing.close config

/-- A `JobQueue`, what it has closed, and the calls made so far. -/
abbrev World (P : Type) := Pool Thrown (Memory P) Server Reply (Call P) Unit

/-- A `JobQueue` under any interleaving of calls. -/
def system (P : Type) (config : QueueConfig) :
    System (World P) (PoolEvent (Call P) (Answer Thrown)) :=
  Pool.system serve (Call.method config)

instance (stage : Stage Thrown (Memory P) Reply Unit) : Decidable (stage = .settled (.ok ())) :=
  match stage with
  | .waiting _ _ | .ready _ _ _ | .settled (.error _) => .isFalse nofun
  | .settled (.ok ()) => .isTrue rfl

/-- The `n`-th call has resolved. -/
def Resolved (w : World P) (n : ℕ) : Prop := ∃ t ∈ w.threads[n]?, t.stage = .settled (.ok ())

instance (w : World P) (n : ℕ) : Decidable (Resolved w n) :=
  inferInstanceAs (Decidable (∃ t ∈ w.threads[n]?, t.stage = .settled (.ok ())))

/-- All that was opened, the workers being these. -/
def opened (config : QueueConfig) (workers : List ℕ) : List Handle :=
  workers.map .worker ++ ((if config.isDlqEnabled then [.dlqQueue] else []) ++ [.queue, .redis])

/-! ## The order -/

section

variable {config : QueueConfig}

/-- There is one worker at most, and it is there once there is a processor. -/
def OneWorker (m : Memory P) : Prop :=
  (m.workers = [] ∧ m.processors.keys = []) ∨ (m.workers = [0] ∧ m.processors.keys ≠ [])

/-- Nothing is closed before what uses it. -/
structure Ordered (config : QueueConfig) (w : Shared (Memory P) Server) : Prop where
  oneWorker : OneWorker w.memory
  redis : .redis ∈ w.server.closed → .queue ∈ w.server.closed
  queue : config.isDlqEnabled → .queue ∈ w.server.closed → .dlqQueue ∈ w.server.closed

/-- The handle has been closed. -/
def IsClosed (handle : Handle) (s : Server) : Prop := handle ∈ s.closed

/-- While others keep the order and reopen nothing, the method does the same, and where `K` is
closed it resolves only when `G` is. -/
abbrev Shuts (config : QueueConfig) (K G : Set Handle) (method : Method P Unit) : Prop :=
  Secures serve (Ordered config) IsClosed K (fun _ => True) (fun _ => G) method

/-- A handle is closed after those that use it. -/
theorem shuts_shut {K : Set Handle} (handle : Handle) (hredis : handle = .redis → .queue ∈ K)
    (hqueue : config.isDlqEnabled → handle = .queue → .dlqQueue ∈ K) :
    Shuts (P := P) config K {handle} (shut handle) := by
  refine .await fun answer m s hs hK => ?_
  have hclosed : Ordered config ⟨m, (respond handle s).2⟩ := by
    refine ⟨hs.oneWorker, fun h => ?_, fun henabled h => ?_⟩
    · rcases List.mem_cons.mp h with heq | h
      · exact List.mem_cons_of_mem _ (hK _ (hredis heq.symm))
      · exact List.mem_cons_of_mem _ (hs.redis h)
    · rcases List.mem_cons.mp h with heq | h
      · exact List.mem_cons_of_mem _ (hK _ (hqueue henabled heq.symm))
      · exact List.mem_cons_of_mem _ (hs.queue henabled h)
  have hlasts : Lasts IsClosed s (respond handle s).2 := fun _ h => List.mem_cons_of_mem _ h
  rw [serve]
  cases answer with
  | answered =>
    refine ⟨⟨hclosed, hlasts⟩, fun r _ => ⟨trivial, fun x hx => ?_⟩⟩
    exact List.mem_cons.mpr (.inl hx)
  | rejected e applied =>
    refine ⟨?_, fun r hr => by cases hr⟩
    cases applied with
    | true => exact ⟨hclosed, hlasts⟩
    | false => exact ⟨hs, .refl s⟩

/-- Workers are closed one after the other. -/
theorem shuts_workers {K : Set Handle} (workers : List ℕ) :
    Shuts (P := P) config K {handle | ∃ worker ∈ workers, handle = .worker worker}
      (.forEach (fun worker => shut (.worker worker)) workers) := by
  induction workers generalizing K with
  | nil => exact .pure trivial fun _ h => by simp at h
  | cons worker workers ih =>
    have hfirst : Shuts (P := P) config K {.worker worker} (shut (.worker worker)) :=
      shuts_shut (.worker worker) (fun h => by cases h) (fun _ h => by cases h)
    refine .bind hfirst fun _ _ => ih.known.mono (fun _ => id) fun _ _ handle h => ?_
    obtain ⟨x, hx, rfl⟩ := h
    rcases List.mem_cons.mp hx with rfl | hx
    · exact .inl (.inr rfl)
    · exact .inr ⟨x, hx, rfl⟩

theorem shuts_shutDlqQueue {K : Set Handle} :
    Shuts (P := P) config K {handle | config.isDlqEnabled ∧ handle = .dlqQueue}
      (shutDlqQueue config) := by
  unfold shutDlqQueue
  split
  case isTrue henabled =>
    have hshut : Shuts (P := P) config K {.dlqQueue} (shut .dlqQueue) :=
      shuts_shut .dlqQueue (fun h => by cases h) (fun _ h => by cases h)
    exact hshut.mono (fun _ => id) fun _ _ handle h => h.2
  case isFalse hdisabled =>
    exact .pure trivial fun _ h => absurd h.1 hdisabled

theorem mem_opened {workers : List ℕ} {handle : Handle} :
    handle ∈ opened config workers ↔
      (∃ worker ∈ workers, handle = .worker worker) ∨ handle ∈ opened config [] := by
  rw [opened, opened, List.map_nil, List.nil_append, List.mem_append, List.mem_map]
  exact or_congr_left (exists_congr fun _ => and_congr_right fun _ => eq_comm)

theorem OneWorker.eq_zero {m : Memory P} (h : OneWorker m) {worker : ℕ}
    (hworker : worker ∈ m.workers) : worker = 0 := by
  rcases h with ⟨hworkers, -⟩ | ⟨hworkers, -⟩ <;> simp_all

/-- All is closed in the end. -/
theorem shuts_closeAll (workers : List ℕ) :
    Shuts (P := P) config ∅ {handle | handle ∈ opened config workers}
      (closeAll config workers) := by
  refine .bind (shuts_workers workers) fun _ _ => .bind shuts_shutDlqQueue fun _ _ => ?_
  refine .bind (P := fun _ => True) (H := fun _ => {.queue}) ?_ fun _ _ => ?_
  · exact shuts_shut .queue (fun h => by cases h) fun henabled _ => .inr ⟨henabled, rfl⟩
  refine Secures.mono (Secures.known (shuts_shut .redis (fun _ => .inr rfl) fun _ h => by cases h))
    (fun _ => id) fun _ _ handle h => ?_
  simp only [Set.mem_ofPred_eq, opened, List.mem_append, List.mem_map] at h
  rcases h with ⟨x, hx, rfl⟩ | h | h
  · exact .inl (.inl (.inl (.inr ⟨x, hx, rfl⟩)))
  · by_cases henabled : config.isDlqEnabled
    · rw [if_pos henabled, List.mem_singleton] at h
      exact .inl (.inl (.inr ⟨henabled, h⟩))
    · simp [henabled] at h
  · rcases List.mem_cons.mp h with rfl | h
    · exact .inl (.inr rfl)
    · exact .inr (List.mem_singleton.mp h)

/-- A worker is made with the first processor. -/
theorem oneWorker_withWorker {m : Memory P} (h : OneWorker m) {jobName : String} {processor : P} :
    OneWorker { m with processors := m.processors.set jobName processor }.withWorker := by
  have hkeys : (m.processors.set jobName processor).keys ≠ [] :=
    List.ne_nil_of_mem (InsertionMap.mem_keys_set.mpr (.inl rfl))
  rcases h with ⟨hworkers, -⟩ | ⟨hworkers, -⟩
  · exact .inr ⟨by simp [Memory.withWorker, hworkers], by simpa [Memory.withWorker, hworkers]⟩
  · exact .inr ⟨by simp [Memory.withWorker, hworkers], by simpa [Memory.withWorker, hworkers]⟩

theorem shuts_process (stack jobName : String) (processor : P) :
    Shuts config ∅ ∅ (process stack jobName processor) := by
  refine .act fun m s hs => ⟨?_, fun a _ => ⟨trivial, Set.Subset.rfl⟩⟩
  split
  · exact hs
  · exact ⟨oneWorker_withWorker hs.oneWorker, hs.redis, hs.queue⟩

theorem shuts_method (call : Call P) : Shuts config ∅ ∅ (call.method config) := by
  cases call with
  | process stack jobName processor => exact shuts_process stack jobName processor
  | close =>
    refine .read_bind fun w _ => ?_
    exact (shuts_closeAll w.memory.workers).mono (fun _ => id) fun _ _ => Set.empty_subset _

theorem ordered_init : Ordered config (⟨{}, {}⟩ : Shared (Memory P) Server) :=
  ⟨.inl ⟨rfl, rfl⟩, fun h => absurd h List.not_mem_nil, fun _ h => absurd h List.not_mem_nil⟩

end

/-! ## Runs -/

section

variable {config : QueueConfig} {es : List (PoolEvent (Call P) (Answer Thrown))} {w : World P}

/-- **Nothing is closed before what uses it, and there is one worker at most**, whatever calls
overlap and whatever fails. -/
theorem ordered_of_run (h : (system P config).runFrom ⟨⟨{}, {}⟩, []⟩ es = some w) :
    Ordered config w.toShared :=
  (secures_of_run (P := fun _ => True) (fun call _ => shuts_method call) ordered_init
    (fun _ _ => trivial) h).1

/-- **When `close` has resolved, all is closed** but for a worker that was made after it was called:
that one is not closed by this call. -/
theorem released_of_run (h : (system P config).runFrom ⟨⟨{}, {}⟩, []⟩ es = some w)
    {es' : List (PoolEvent (Call P) (Answer Thrown))} {w' : World P}
    (h' : (system P config).runFrom w (.spawn .close :: es') = some w')
    (hresolved : Resolved w' w.threads.length) :
    ∀ handle ∈ opened config w'.memory.workers,
      handle ∈ w'.server.closed ∨ w.memory.workers = [] ∧ handle = .worker 0 := by
  have hclose : Meets serve (.persisting (Ordered config) IsClosed)
      (resolvingWhere (Ordered config) IsClosed ∅ (fun _ => True)
        fun _ => {handle | handle ∈ opened config w.memory.workers})
      (Call.close.method config) [] w.toShared w.toShared :=
    meets_read_bind.mpr (shuts_closeAll w.memory.workers [] w.toShared w.toShared
      (ordered_of_run h) rfl fun _ hx => hx.elim)
  obtain ⟨t, ht, hdone⟩ := hresolved
  obtain ⟨t', ht', -, hsettled⟩ := secured_of_called (P := fun _ => True)
    (fun call _ => shuts_method call) ordered_init (fun _ _ => trivial) h h' hclose
  obtain rfl := Option.some.inj (ht.symm.trans ht')
  have hclosed := (hsettled () hdone).2
  have hrun : (system P config).runFrom ⟨⟨{}, {}⟩, []⟩ (es ++ .spawn .close :: es') = some w' :=
    System.runFrom_append_eq_some.mpr ⟨w, h, h'⟩
  intro handle hhandle
  rcases mem_opened.mp hhandle with ⟨worker, hworker, rfl⟩ | hhandle
  · obtain rfl := (ordered_of_run hrun).oneWorker.eq_zero hworker
    rcases (ordered_of_run h).oneWorker with ⟨hnone, -⟩ | ⟨hworkers, -⟩
    · exact .inr ⟨hnone, rfl⟩
    · exact .inl (hclosed _ (mem_opened.mpr (.inl ⟨0, by simp [hworkers], rfl⟩)))
  · exact .inl (hclosed _ (mem_opened.mpr (.inr hhandle)))

/-- A queue with a dead letter queue. -/
def mailConfig : QueueConfig := { name := "mail", dlq := some { enabled := true } }

/-- A processor is registered while the queue is being closed, and the connection fails after it was
closed. -/
def closingRun : List (PoolEvent (Call Unit) (Answer Thrown)) :=
  [.spawn .close, .exec 0 .answered, .resume 0, .spawn (.process "" "send" ()), .exec 0 .answered,
    .resume 0, .exec 0 (.rejected (.value "closed") true), .resume 0]

/-- It is closed again. -/
def closingAgainRun : List (PoolEvent (Call Unit) (Answer Thrown)) :=
  [.exec 2 .answered, .resume 2, .exec 2 .answered, .resume 2, .exec 2 .answered, .resume 2,
    .exec 2 .answered, .resume 2]

theorem isSome_closingRun :
    ((system Unit mailConfig).runFrom ⟨⟨{}, {}⟩, []⟩
      (closingRun ++ .spawn .close :: closingAgainRun)).isSome := by
  decide +kernel

/-- The worker is closed the second time. -/
theorem released_of_closingRun :
    ∃ w w' : World Unit, (system Unit mailConfig).runFrom ⟨⟨{}, {}⟩, []⟩ closingRun = some w ∧
      (system Unit mailConfig).runFrom w (.spawn .close :: closingAgainRun) = some w' ∧
      ∀ handle ∈ opened mailConfig w'.memory.workers,
        handle ∈ w'.server.closed ∨ w.memory.workers = [] ∧ handle = .worker 0 := by
  obtain ⟨w, hclosing, hagain⟩ := System.runFrom_append_eq_some.mp
    (Option.some_get isSome_closingRun).symm
  have hresolved : ∀ w ∈ (system Unit mailConfig).runFrom ⟨⟨{}, {}⟩, []⟩ closingRun,
      ∀ w' ∈ (system Unit mailConfig).runFrom w (.spawn .close :: closingAgainRun),
        Resolved w' w.threads.length := by
    decide +kernel
  exact ⟨w, _, hclosing, hagain, released_of_run hclosing hagain (hresolved w hclosing _ hagain)⟩

theorem ordered_of_closingRun :
    ∃ w, (system Unit mailConfig).runFrom ⟨⟨{}, {}⟩, []⟩
        (closingRun ++ .spawn .close :: closingAgainRun) = some w ∧
      Ordered mailConfig w.toShared :=
  ⟨_, (Option.some_get isSome_closingRun).symm,
    ordered_of_run (Option.some_get isSome_closingRun).symm⟩

end

end KitiumJobQueue.JobQueue.Closing
