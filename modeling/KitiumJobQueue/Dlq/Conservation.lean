import KitiumJobQueue.Dlq.Overlapping
import KitiumJobQueue.Dlq.Replay

/-!
# What overlapping replays keep

Replays take no care of each other: two of them may copy the same failed job, and a replay that
finds no failed job left has added a copy for nothing. Yet every job of the queue has the name and
the data of one that was added (`copied_of_run`). The replays that are under way, finished and cut
short, taken together, have cleaned no more jobs than they have added, so that the number of jobs
falls only by those that workers and `clearDLQ` take away (`conserved_of_run`); and they report no
more copies than were stored (`backed_of_run`).

The last two are accounts. A copy is worth one, and the removal of a failed job minus one in the
first account and nothing in the second. A replay adds before it removes, so it is never in debt,
and a call of the queue that has no answer is booked as the worse of what it may have done.
-/

namespace KitiumJobQueue.Dlq.Overlapping

open Effects Bull

variable {ε : Type} {rule : CleanRule} {dlqConfig : Option DLQConfig} {q : Queue}
  {Called : Call → Prop} {c : Command} {s : Server} {now : ℕ}

/-! ## Commands -/

/-- The name, the data and the options of the job that a command asks the queue to add. -/
def Command.adds : Command → Option (String × Json × Option JobOptions)
  | .addJob jobName data options | .addCopy jobName data options => some (jobName, data, options)
  | .getJob _ | .getFailed _ | .countFailed | .cleanOne | .cleanAll _ | .start _ | .settle _ _ _
  | .promote _ => none

theorem queue_respond_of_adds {jobName : String} {data : Json} {options : Option JobOptions}
    (h : c.adds = some (jobName, data, options)) :
    (respond rule now c s).2.queue =
      (s.queue.add jobName data { toJobOptions := options.getD {} } now).2 := by
  cases c with
  | addJob => cases h; rfl
  | addCopy => cases h; rfl
  | getJob | getFailed | countFailed | cleanOne | cleanAll | start | settle | promote => cases h

/-- The other commands leave alone what jobs hold, and add none. -/
theorem retains_respond (h : c.adds = none) : s.queue.Retains (respond rule now c s).2.queue := by
  cases c with
  | addJob | addCopy => cases h
  | getJob | getFailed | countFailed => exact .refl s.queue
  | cleanOne => exact Queue.retains_clean s.queue rule 1 .failed
  | cleanAll limit => exact Queue.retains_clean s.queue rule limit .failed
  | start jobId => exact Queue.retains_getD fun _ => Queue.retains_start
  | settle jobId completed isDelayed =>
    refine Queue.retains_getD ?_
    split
    · exact fun _ => Queue.retains_complete
    · exact fun _ => Queue.retains_fail
  | promote jobId => exact Queue.retains_getD fun _ => Queue.retains_promote

theorem narrows_respond (hs : s.queue.ids.Nodup) (h : c.adds = none) :
    s.queue.Narrows (respond rule now c s).2.queue := by
  cases c with
  | addJob | addCopy => cases h
  | getJob | getFailed | countFailed => exact .refl hs
  | cleanOne => exact Queue.narrows_clean hs rule 1 .failed
  | cleanAll limit => exact Queue.narrows_clean hs rule limit .failed
  | start jobId => exact Queue.narrows_getD hs fun _ => Queue.narrows_start hs
  | settle jobId completed isDelayed =>
    refine Queue.narrows_getD hs ?_
    split
    · exact fun _ hcomplete => (Queue.closes_complete hs hcomplete).narrows
    · exact fun _ => Queue.narrows_fail hs
  | promote jobId => exact Queue.narrows_getD hs fun _ => Queue.narrows_promote hs

/-! ## Where the contents come from -/

section

variable (q : Queue) (Called : Call → Prop)

/-- The name and the data of a job that calls may have put into the queue, starting from `q`. -/
inductive Made : String → Json → Prop
  | found {job : Job} (hjob : job ∈ q.jobs) : Made job.name job.data
  | added {jobName : String} {data : Json} {options : Option JobOptions}
    (hcalled : Called (.addJob jobName data options)) : Made jobName data

/-- Every job was made so. -/
def Copied (s : Server) : Prop := ∀ job ∈ s.queue.jobs, Made q Called job.name job.data

/-- While others do likewise, the method adds only what was made, and resolves with what meets
`Q`. -/
abbrev Copies (rule : CleanRule) {α : Type} (Q : α → Prop) (method : Method ε α) : Prop :=
  Ensures (serve rule) (fun w => Copied q Called w.server) (fun _ _ => True) Q method

/-- What a call lists was made. -/
def Result.Listed : Result → Prop
  | .jobs dlqJobs => ∀ dlqJob ∈ dlqJobs, Made q Called dlqJob.name dlqJob.data
  | .jobId _ | .count _ | .replayed _ | .done => True

end

theorem Copied.respond (hs : Copied q Called s)
    (hc : ∀ jobName data options, c.adds = some (jobName, data, options) →
      Made q Called jobName data) :
    Copied q Called (respond rule now c s).2 := by
  intro job hjob
  cases hadds : c.adds with
  | none =>
    obtain ⟨job', hjob', -, hname, hdata⟩ := (retains_respond hadds).contents job hjob
    rw [← hname, ← hdata]
    exact hs job' hjob'
  | some added =>
    obtain ⟨jobName, data, options⟩ := added
    rw [queue_respond_of_adds hadds] at hjob
    rcases Queue.mem_jobs_or_returned hjob with hjob | rfl
    · exact hs job hjob
    · rcases Queue.add_cases (q := s.queue) jobName data _ now with ⟨hstored, -⟩ | ⟨hname, hdata⟩
      · exact hs _ hstored
      · rw [hname, hdata]
        exact hc jobName data options hadds

theorem copies_ask {Q : Reply c → Prop}
    (hc : ∀ jobName data options, c.adds = some (jobName, data, options) →
      Made q Called jobName data)
    (hQ : ∀ now s, Copied q Called s → Q (respond rule now c s).1) :
    Copies (ε := ε) q Called rule Q (ask c) :=
  .perform (fun _ _ => rfl)
    (fun _ _ _ hs => ⟨hs.respond hc, .inr trivial⟩) fun v _ s hs => hQ v.now s hs

/-- A command that adds nothing and of whose answer nothing is said. -/
theorem copies_other (h : c.adds = none) :
    Copies (ε := ε) q Called rule (fun _ => True) (ask c) :=
  copies_ask (fun _ _ _ hadds => by rw [h] at hadds; cases hadds) fun _ _ _ => trivial

theorem copies_getDLQJobs (limit : ℕ) :
    Copies (ε := ε) q Called rule (fun jobs => ∀ job ∈ jobs, Made q Called job.name job.data)
      (getDLQJobs dlqConfig limit) := by
  unfold getDLQJobs
  split
  · refine .handle (.bind
      (P := fun jobs : List Job => ∀ job ∈ jobs, Made q Called job.name job.data)
      (copies_ask (fun _ _ _ h => by cases h) fun now s hs job hjob => ?_) fun jobs hjobs => ?_)
      fun _ => .pure (List.forall_mem_nil _)
    · exact hs job (Queue.mem_inState.mp ((range_sublist _ _ _).subset hjob)).1
    · exact .pure (List.forall_mem_map.mpr hjobs)
  · exact .pure (List.forall_mem_nil _)

theorem copies_getDLQCount :
    Copies (ε := ε) q Called rule (fun _ => True) (getDLQCount dlqConfig) := by
  unfold getDLQCount
  split
  · exact .handle (copies_other rfl) fun _ => .pure trivial
  · exact .pure trivial

/-- A replay adds what it has found, whatever has become of that meanwhile. -/
theorem copies_replayJob (jobId : String) (options : Option JobOptions) :
    Copies (ε := ε) q Called rule (fun _ => True) (replayJob dlqConfig jobId options) := by
  unfold replayJob
  split
  · refine .handle (.bind (P := fun job : Option Job => ∀ j ∈ job, Made q Called j.name j.data)
      (copies_ask (fun _ _ _ h => by cases h) fun now s hs j hj => ?_) fun job hjob => ?_)
      fun _ => .pure trivial
    · exact hs j (Queue.getJob_eq_some hj).1
    · cases job with
      | none => exact .pure trivial
      | some job =>
        refine .bind (P := fun _ => True) (copies_ask (fun _ _ _ h => ?_) fun _ _ _ => trivial)
          fun _ _ => .bind (copies_other rfl) fun _ _ => .pure trivial
        cases h
        exact hjob job rfl
  · exact .pure trivial

theorem copies_replayJobs (dlqJobs : List DLQJobInfo) (replayed : ℕ) :
    Copies (ε := ε) q Called rule (fun _ => True) (replayJobs dlqConfig dlqJobs replayed) := by
  induction dlqJobs generalizing replayed with
  | nil => exact .pure trivial
  | cons dlqJob dlqJobs ih => exact .bind (copies_replayJob dlqJob.id none) fun _ _ => ih _

theorem copies_replayDLQ (limit : ℕ) :
    Copies (ε := ε) q Called rule (fun _ => True) (replayDLQ dlqConfig limit) := by
  unfold replayDLQ
  split
  · exact .handle (.bind (copies_getDLQJobs limit) fun jobs _ => copies_replayJobs jobs 0)
      fun _ => .pure trivial
  · exact .pure trivial

theorem copies_clearDLQ :
    Copies (ε := ε) q Called rule (fun _ => True) (clearDLQ dlqConfig) := by
  unfold clearDLQ
  split
  · exact .handle (.bind copies_getDLQCount fun _ _ =>
      .bind (copies_other rfl) fun _ _ => .pure trivial) fun _ => .pure trivial
  · exact .pure trivial

theorem copies_method {call : Call} (hcalled : Called call) :
    Copies (ε := ε) q Called rule (Result.Listed q Called) (call.method dlqConfig) := by
  cases call with
  | addJob jobName data options =>
    refine .bind (P := fun _ => True) (copies_ask (fun _ _ _ h => ?_) fun _ _ _ => trivial)
      fun _ _ => .pure trivial
    cases h
    exact .added hcalled
  | getDLQJobs limit => exact .bind (copies_getDLQJobs limit) fun jobs hjobs => .pure hjobs
  | getDLQCount => exact .bind copies_getDLQCount fun _ _ => .pure trivial
  | replayJob jobId options => exact .bind (copies_replayJob jobId options) fun _ _ => .pure trivial
  | replayDLQ limit => exact .bind (copies_replayDLQ limit) fun _ _ => .pure trivial
  | clearDLQ => exact .bind copies_clearDLQ fun _ _ => .pure trivial
  | start jobId => exact .bind (copies_other rfl) fun _ _ => .pure trivial
  | settle jobId completed isDelayed => exact .bind (copies_other rfl) fun _ _ => .pure trivial
  | promote jobId => exact .bind (copies_other rfl) fun _ _ => .pure trivial

/-- **Replays make nothing up.** However calls overlap, and whichever of them fail: a job of the
queue has the name and the data of a job that was there at first or of one that an `addJob` was
called with, and so has every job that `getDLQJobs` lists. -/
theorem copied_of_run {es : List (PoolEvent Call (Choice ε))} {p : World ε}
    (h : (system rule dlqConfig).runFrom ⟨⟨(), { queue := q }⟩, []⟩ es = some p) :
    (∀ job ∈ p.server.queue.jobs, Made q (fun call => .spawn call ∈ es) job.name job.data) ∧
      ∀ t ∈ p.threads, ∀ result, t.stage = .settled (.ok result) →
        result.Listed q fun call => .spawn call ∈ es :=
  ensures_of_run (P := fun call => .spawn call ∈ es) (fun _ hcalled => copies_method hcalled)
    (fun _ hjob => .found hjob) (fun _ hcalled => hcalled) h

/-! ## Accounts -/

/-- What commands are worth: a copy one, and the removal that follows it `r`. -/
def Command.worth (r : ℤ) : Command → ℤ
  | .addCopy _ _ _ => 1
  | .cleanOne => r
  | .addJob _ _ _ | .getJob _ | .getFailed _ | .countFailed | .cleanAll _ | .start _ | .settle _ _ _
  | .promote _ => 0

/-- The copies that a call reports. -/
def Call.reported : Call → Result → ℕ
  | .replayJob _ _, .replayed isSuccess => if isSuccess then 1 else 0
  | .replayDLQ _, .count replayed => replayed
  | _, _ => 0

/-- With a balance of `n` at least the method never gets into debt, and it has `k a` left when it
resolves with `a`, and `e` when it rejects. -/
abbrev Affords (rule : CleanRule) (r n : ℤ) {α : Type} (k : α → ℤ) (e : ℤ) (method : Method ε α) :
    Prop :=
  Earns (serve rule) (booked (Command.worth r)) n k e method

section

variable {r n : ℤ} (hn : 0 ≤ n)
include hn

theorem affords_command (hc : 0 ≤ n + c.worth r) :
    Affords (ε := ε) rule r n (fun _ => n + c.worth r) (n + min (c.worth r) 0) (ask c) :=
  Earns.command c hn hc

/-- A command that is worth nothing. -/
theorem affords_ask (hc : c.worth r = 0) :
    Affords (ε := ε) rule r n (fun _ => n) n (ask c) :=
  (affords_command hn (by omega)).mono (fun _ => by omega) (by omega)

theorem affords_getDLQJobs (limit : ℕ) :
    Affords (ε := ε) rule r n (fun _ => n) n (getDLQJobs dlqConfig limit) := by
  unfold getDLQJobs
  split
  · exact .handle (.bind (affords_ask hn rfl) fun _ => .pure le_rfl) fun _ => .pure le_rfl
  · exact .pure le_rfl

theorem affords_getDLQCount :
    Affords (ε := ε) rule r n (fun _ => n) n (getDLQCount dlqConfig) := by
  unfold getDLQCount
  split
  · exact .handle (affords_ask hn rfl) fun _ => .pure le_rfl
  · exact .pure le_rfl

theorem affords_clearDLQ : Affords (ε := ε) rule r n (fun _ => n) n (clearDLQ dlqConfig) := by
  unfold clearDLQ
  split
  · exact .handle (.bind (affords_getDLQCount hn) fun _ =>
      .bind (affords_ask hn rfl) fun _ => .pure le_rfl) fun _ => .pure le_rfl
  · exact .pure le_rfl

variable (hr : -1 ≤ r) (hr' : r ≤ 0)
include hr hr'

/-- The copy pays for the removal, wherever the replay is cut short. -/
theorem affords_replayJob (jobId : String) (options : Option JobOptions) :
    Affords (ε := ε) rule r n (fun isSuccess => if isSuccess then n + (1 + r) else n) n
      (replayJob dlqConfig jobId options) := by
  unfold replayJob
  split
  · refine .handle (d := n) (.bind (affords_ask hn rfl) fun job => ?_) fun _ => .pure le_rfl
    cases job with
    | none => exact .pure le_rfl
    | some job =>
      have hcopy : Affords (ε := ε) rule r n (fun _ => n + 1) n
          (ask (.addCopy job.name job.data options)) := by
        have hworth : (Command.addCopy job.name job.data options).worth r = 1 := rfl
        exact (affords_command hn (by omega)).mono (fun _ => by omega) (by omega)
      have hclean : Affords (ε := ε) rule r (n + 1) (fun _ => n + (1 + r)) n (ask .cleanOne) := by
        have hworth : Command.cleanOne.worth r = r := rfl
        exact (affords_command (by omega) (by omega)).mono (fun _ => by omega) (by omega)
      exact .bind hcopy fun _ => .bind hclean fun _ => .pure le_rfl
  · exact .pure le_rfl

/-- By induction on the jobs that are left, the balance growing with what is to be reported. -/
theorem affords_replayJobs (dlqJobs : List DLQJobInfo) (replayed : ℕ) :
    Affords (ε := ε) rule r (n + (1 + r) * replayed) (fun count : ℕ => n + (1 + r) * count) n
      (replayJobs dlqConfig dlqJobs replayed) := by
  induction dlqJobs generalizing replayed with
  | nil => exact .pure le_rfl
  | cons dlqJob dlqJobs ih =>
    have hreported : 0 ≤ (1 + r) * replayed := Int.mul_nonneg (by omega) (Int.natCast_nonneg _)
    refine .bind (j := fun isSuccess : Bool =>
      n + (1 + r) * ((if isSuccess then replayed + 1 else replayed : ℕ) : ℤ)) ?_ fun _ => ih _
    refine (affords_replayJob (by omega) hr hr' dlqJob.id none).mono (fun isSuccess => ?_)
      (by omega)
    cases isSuccess with
    | false => exact le_rfl
    | true =>
      simp only [if_true]
      rw [Nat.cast_succ, Int.mul_add, Int.mul_one, Int.add_assoc]

theorem affords_replayDLQ (limit : ℕ) :
    Affords (ε := ε) rule r n (fun count : ℕ => n + (1 + r) * count) n
      (replayDLQ dlqConfig limit) := by
  unfold replayDLQ
  split
  · refine .handle (.bind (affords_getDLQJobs hn limit) fun dlqJobs => ?_) fun _ => .pure ?_
    · exact (affords_replayJobs hn hr hr' dlqJobs 0).weaken (by simp)
    · simp
  · exact .pure (by simp)

end

theorem affords_unreported {r : ℤ} {α : Type} {call : Call} {method : Method ε α}
    {result : α → Result} (hmethod : Affords (ε := ε) rule r 0 (fun _ => 0) 0 method)
    (hcall : ∀ a, call.reported (result a) = 0) :
    Affords (ε := ε) rule r 0 (fun result => (1 + r) * call.reported result) 0 (do
      let a ← method
      pure (result a)) :=
  .bind hmethod fun a => .pure (by rw [hcall, Nat.cast_zero, Int.mul_zero])

/-- What a call reports, it has paid for. -/
theorem affords_method {r : ℤ} (hr : -1 ≤ r) (hr' : r ≤ 0) (call : Call) :
    Affords (ε := ε) rule r 0 (fun result => (1 + r) * call.reported result) 0
      (call.method dlqConfig) := by
  cases call with
  | addJob jobName data options => exact affords_unreported (affords_ask le_rfl rfl) fun _ => rfl
  | getDLQJobs limit => exact affords_unreported (affords_getDLQJobs le_rfl limit) fun _ => rfl
  | getDLQCount => exact affords_unreported (affords_getDLQCount le_rfl) fun _ => rfl
  | replayJob jobId options =>
    refine .bind (affords_replayJob le_rfl hr hr' jobId options) fun isSuccess => .pure ?_
    cases isSuccess with
    | false => exact (Int.mul_zero _).le
    | true => exact ((Int.mul_one _).trans (Int.zero_add _).symm).le
  | replayDLQ limit =>
    exact .bind (affords_replayDLQ le_rfl hr hr' limit) fun _ => .pure (Int.zero_add _).ge
  | clearDLQ => exact affords_unreported (affords_clearDLQ le_rfl) fun _ => rfl
  | start jobId => exact affords_unreported (affords_ask le_rfl rfl) fun _ => rfl
  | settle jobId completed isDelayed =>
    exact affords_unreported (affords_ask le_rfl rfl) fun _ => rfl
  | promote jobId => exact affords_unreported (affords_ask le_rfl rfl) fun _ => rfl

theorem reported_nonneg {r : ℤ} (hr : -1 ≤ r) (call : Call) (result : Result) :
    0 ≤ (1 + r) * (call.reported result : ℤ) :=
  Int.mul_nonneg (by omega) (Int.natCast_nonneg _)

/-! ## The number of jobs -/

/-- The jobs that are there or have gone, those that were added not counted. -/
def Server.balance (s : Server) : ℤ := s.queue.jobs.length + s.gone - s.added

/-- A well-formed queue that gives every new job a number, starting from `q`, and in which there are
no more jobs than were there and have been added. -/
structure Counted (q : Queue) (s : Server) : Prop where
  wellFormed : s.queue.WellFormed
  customId : (s.queue.defaultJobOptions.spread {}).customId = none
  length_le : s.queue.jobs.length + s.gone ≤ q.jobs.length + s.added + s.copies

theorem balance_become {q' : Queue} (h : q'.jobs.length ≤ s.queue.jobs.length) :
    (s.become q').balance = s.balance := by
  simp only [Server.balance, Server.become]
  omega

/-- What goes other than by a replay is counted. -/
theorem balance_respond_of_become (hs : s.queue.ids.Nodup) (hadds : c.adds = none)
    (h : (respond rule now c s).2 = s.become (respond rule now c s).2.queue) :
    (respond rule now c s).2.balance = s.balance ∧ (respond rule now c s).2.copies = s.copies := by
  rw [h]
  exact ⟨balance_become (narrows_respond hs hadds).length_le, rfl⟩

/-- A command changes the number of jobs by what it is worth, or adds more. -/
theorem balance_respond (hs : Counted q s) (c : Command) :
    s.balance + c.worth (-1) ≤ (respond rule now c s).2.balance ∧
      (respond rule now c s).2.balance + s.copies ≤
        s.balance + (respond rule now c s).2.copies := by
  have hnodup := hs.wellFormed.nodup
  cases c with
  | addJob jobName data options =>
    have hlength := Queue.length_add hs.wellFormed { toJobOptions := options.getD {} }
      hs.customId jobName data now
    simp only [respond, Server.balance, Command.worth, hlength]
    omega
  | addCopy jobName data options =>
    have hlength := Queue.length_add hs.wellFormed { toJobOptions := options.getD {} }
      hs.customId jobName data now
    simp only [respond, Server.balance, Command.worth, hlength]
    omega
  | getJob | getFailed | countFailed => simp only [respond, Command.worth]; omega
  | cleanOne =>
    have hone := Queue.length_le_cleanOne hnodup rule .failed
    have hle := (Queue.narrows_cleanOne hnodup rule .failed).length_le
    simp only [respond, Server.balance, Command.worth, clean_one]
    omega
  | cleanAll | start | settle | promote =>
    rw [(balance_respond_of_become hnodup rfl rfl).1, (balance_respond_of_become hnodup rfl rfl).2]
    exact ⟨(Int.add_zero _).le, le_rfl⟩

theorem Counted.respond (hs : Counted q s) (c : Command) :
    Counted q (respond rule now c s).2 := by
  have hlength : (Overlapping.respond rule now c s).2.queue.jobs.length +
      (Overlapping.respond rule now c s).2.gone ≤ q.jobs.length +
        (Overlapping.respond rule now c s).2.added +
          (Overlapping.respond rule now c s).2.copies := by
    have hbalance : _ ≤ s.balance + (Overlapping.respond rule now c s).2.copies :=
      (balance_respond hs c).2
    have hle := hs.length_le
    simp only [Server.balance] at hbalance
    omega
  cases hadds : c.adds with
  | none =>
    have hretains : s.queue.Retains (Overlapping.respond rule now c s).2.queue :=
      retains_respond hadds
    refine ⟨hretains.wellFormed hs.wellFormed ?_, ?_, hlength⟩
    · exact (narrows_respond hs.wellFormed.nodup hadds).nodup
    · rw [hretains.defaults]
      exact hs.customId
  | some added =>
    obtain ⟨jobName, data, options⟩ := added
    have hqueue : (Overlapping.respond rule now c s).2.queue = _ := queue_respond_of_adds hadds
    refine ⟨?_, ?_, hlength⟩
    · rw [hqueue]
      exact hs.wellFormed.add hs.customId
    · rw [hqueue, Queue.defaultJobOptions_add]
      exact hs.customId

section

variable {es : List (PoolEvent Call (Choice ε))} {p : World ε}

theorem pays_balance :
    Pays (serve (ε := ε) rule) (Counted q) (booked (Command.worth (-1))) Server.balance :=
  pays_booked Choice.answer (fun v => respond rule v.now) (fun _ _ _ => rfl)
    (fun _ c _ hs => hs.respond c) fun _ c _ hs => (balance_respond hs c).1

/-- **Overlapping replays lose no job.** In every run, whatever replays overlap, fail and are cut
short, and whatever workers do meanwhile, the jobs of the queue and those that workers and
`clearDLQ` have taken away are together as many as there were and were added, or more, by no more
than the copies that were stored. -/
theorem conserved_of_run (hq : q.WellFormed)
    (hcustom : (q.defaultJobOptions.spread {}).customId = none)
    (h : (system rule dlqConfig).runFrom ⟨⟨(), { queue := q }⟩, []⟩ es = some p) :
    q.jobs.length + p.server.added ≤ p.server.queue.jobs.length + p.server.gone ∧
      p.server.queue.jobs.length + p.server.gone ≤
        q.jobs.length + p.server.added + p.server.copies := by
  have hcounted : Counted q { queue := q } := ⟨hq, hcustom, Nat.le_refl _⟩
  have hbalance := le_value_of_run (affords_method le_rfl (by decide))
    (fun call result => reported_nonneg le_rfl call result) pays_balance hcounted h
  refine ⟨?_, (pays_balance.earned_le hcounted h).1.length_le⟩
  simp only [Server.balance] at hbalance
  omega

end

/-! ## Two replays of one failed job -/

/-- Two replays list two failed jobs and copy the same one. The second is cut short once its copy is
stored; the first cleans the other job, which neither has copied. A worker fails one of the copies,
an order comes in, and what has failed is listed and cleared. -/
def replayingRun : List (PoolEvent Call (Effects.Choice Unit)) :=
  [.spawn (.replayDLQ 10), .exec 0 {}, .resume 0, .spawn (.replayDLQ 10), .exec 1 {}, .resume 1,
    .exec 0 {}, .resume 0, .exec 1 {}, .resume 1, .exec 0 {}, .resume 0,
    .exec 1 { answer := .rejected () true }, .resume 1, .exec 0 {}, .resume 0, .exec 0 {},
    .resume 0, .exec 1 {}, .resume 1, .spawn (.addJob "charge" .null none), .exec 2 {}, .resume 2,
    .spawn (.start "3"), .exec 3 {}, .resume 3, .spawn (.settle "3" false false), .exec 4 {},
    .resume 4, .spawn (.getDLQJobs 10), .exec 5 {}, .resume 5, .spawn .clearDLQ, .exec 6 {},
    .resume 6, .exec 6 {}, .resume 6]

theorem isSome_replayingRun :
    ((system .oldest (some { enabled := true })).runFrom ⟨⟨(), { queue := failedQueue 2 }⟩, []⟩
      replayingRun).isSome := by
  decide +kernel

/-- The copies and the order are what was there and what came in. -/
theorem copied_of_replayingRun :
    ∃ p, (system .oldest (some { enabled := true })).runFrom
        ⟨⟨(), { queue := failedQueue 2 }⟩, []⟩ replayingRun = some p ∧
      (∀ job ∈ p.server.queue.jobs,
        Made (failedQueue 2) (fun call => .spawn call ∈ replayingRun) job.name job.data) ∧
      ∀ t ∈ p.threads, ∀ result, t.stage = .settled (.ok result) →
        result.Listed (failedQueue 2) fun call => .spawn call ∈ replayingRun :=
  ⟨_, (Option.some_get isSome_replayingRun).symm,
    copied_of_run (Option.some_get isSome_replayingRun).symm⟩

/-- Two jobs are there and two have gone, where there were two and one was added. -/
theorem conserved_of_replayingRun :
    ∃ p, (system .oldest (some { enabled := true })).runFrom
        ⟨⟨(), { queue := failedQueue 2 }⟩, []⟩ replayingRun = some p ∧
      (failedQueue 2).jobs.length + p.server.added ≤
          p.server.queue.jobs.length + p.server.gone ∧
        p.server.queue.jobs.length + p.server.gone ≤
          (failedQueue 2).jobs.length + p.server.added + p.server.copies :=
  ⟨_, (Option.some_get isSome_replayingRun).symm,
    conserved_of_run (primary_failedQueue 2).wellFormed rfl
      (Option.some_get isSome_replayingRun).symm⟩

end KitiumJobQueue.Dlq.Overlapping
