import KitiumJobQueue.Dlq.Manager

/-!
# Replaying the failed jobs of the primary queue

`replayDLQ` goes through a listing of the failed jobs that was made before, adds a copy of each and
lets `clean` remove one failed job. With no call failing and nobody else acting it moves the listed
jobs exactly when `clean` happens to choose, time after time, the job whose copy was just added
(`moves_iff`). BullMQ's own rule, the oldest job first, does so only when there is no more than one
failed job (`picksListed_oldest_iff`): the listing starts with the newest.
-/

namespace KitiumJobQueue.Dlq

open Effects Bull

/-- A queue as the manager finds it: it is well formed, and a job added without options of its own
gets a number for an id and waits. -/
structure Primary (q : Queue) : Prop where
  wellFormed : q.WellFormed
  customId : (q.defaultJobOptions.spread {}).customId = none
  waits : Queue.initialState (q.defaultJobOptions.spread {}) = .waiting

variable (rule : CleanRule) (now : ℕ)

/-- What one `replayJob` does when no call fails. -/
def replayOne (q : Queue) (jobId : String) : Bool × Queue :=
  match q.getJob jobId with
  | none => (false, q)
  | some job => (true, (q.add job.name job.data {} now).2.clean rule 1 .failed)

/-- What the loop does when no call fails. -/
def replayAll : List DLQJobInfo → ℕ → Queue → ℕ × Queue
  | [], replayed, q => (replayed, q)
  | dlqJob :: dlqJobs, replayed, q =>
    replayAll dlqJobs (if (replayOne rule now q dlqJob.id).1 then replayed + 1 else replayed)
      (replayOne rule now q dlqJob.id).2

/-- A copy of a job that is not stored yet. -/
def IsCopy (q : Queue) (job copy : Job) : Prop :=
  copy.name = job.name ∧ copy.data = job.data ∧ copy.id ∉ q.ids

/-- `limit` failed jobs have moved: they are answered for, they and no others have left the failed
jobs, and a new copy of each is waiting, the copy of the last one in front. -/
structure Moves (q : Queue) (limit : ℕ) (replayed : ℕ) (q' : Queue) : Prop where
  replayed : replayed = min limit (q.inState .failed).length
  failed : q'.inState .failed = (q.inState .failed).drop limit
  waiting : ∃ copies, q'.inState .waiting = copies ++ q.inState .waiting ∧
    List.Forall₂ (IsCopy q) ((q.inState .failed).take limit).reverse copies

/-- `clean` chooses, each time, the job whose copy was just added. -/
def PicksListed (q : Queue) (limit : ℕ) : Prop :=
  ∀ i < min limit (q.inState .failed).length,
    rule.pick ((q.inState .failed).drop i) = (q.inState .failed)[i]?

/-! ## One replay -/

variable {rule now}

section One

variable {q : Queue}

/-- The copy `replayJob` adds. -/
def copyOf (q : Queue) (now : ℕ) (job : Job) : Job := q.newJob job.name job.data {} now

/-- The queue with the copy in front. -/
def withCopy (q : Queue) (now : ℕ) (job : Job) : Queue :=
  { q with jobs := copyOf q now job :: q.jobs, counter := q.counter + 1 }

theorem Primary.copyOf_id (h : Primary q) (job : Job) :
    (copyOf q now job).id = toString (q.counter + 1) :=
  Queue.newJob_id_of_none h.customId _ _ _

theorem Primary.copyOf_not_mem (h : Primary q) (job : Job) : (copyOf q now job).id ∉ q.ids := by
  rw [h.copyOf_id]
  exact h.wellFormed.fresh _ (Nat.lt_succ_self _)

theorem Primary.add_eq (h : Primary q) (job : Job) :
    (q.add job.name job.data {} now).2 = withCopy q now job := by
  have hdup : q.duplicate {} = none := by rw [Queue.duplicate, h.customId, Option.bind_none]
  rw [Queue.add_of_duplicate_eq_none hdup (h.copyOf_not_mem job)]
  rfl

theorem Primary.withCopy (h : Primary q) (now : ℕ) (job : Job) : Primary (withCopy q now job) where
  wellFormed := by
    rw [← h.add_eq]
    exact h.wellFormed.add h.customId
  customId := h.customId
  waits := h.waits

theorem Primary.remove (h : Primary q) (id : String) : Primary (q.remove id) where
  wellFormed := h.wellFormed.remove id
  customId := h.customId
  waits := h.waits

theorem Primary.inState_withCopy (h : Primary q) (job : Job) (st : JobState) :
    (Dlq.withCopy q now job).inState st =
      if st = .waiting then copyOf q now job :: q.inState st else q.inState st := by
  have hst : (copyOf q now job).state = .waiting := h.waits
  unfold Queue.inState Dlq.withCopy
  rw [List.filter_cons, hst]
  by_cases hw : st = .waiting
  · simp [hw]
  · simp [hw, Ne.symm hw]

/-- One removal by `clean`. -/
theorem clean_one (q : Queue) (st : JobState) : q.clean rule 1 st = q.cleanOne rule st := rfl

/-- A replay of a stored job while some job is failed: the copy is added, and the job the rule picks
is removed. -/
theorem replayOne_of_mem (h : Primary q) {job x : Job} (hjob : job ∈ q.jobs)
    (hx : rule.pick (q.inState .failed) = some x) :
    replayOne rule now q job.id = (true, (Dlq.withCopy q now job).remove x.id) := by
  unfold replayOne
  rw [Queue.getJob_of_mem h.wellFormed.nodup hjob]
  have hfailed : (Dlq.withCopy q now job).inState .failed = q.inState .failed := by
    rw [h.inState_withCopy, if_neg (by decide)]
  show (true, ((q.add _ _ _ now).2.clean rule 1 .failed)) = _
  rw [h.add_eq, clean_one, Queue.cleanOne, hfailed, hx]

theorem replayOne_of_not_mem {jobId : String} (h : jobId ∉ q.ids) :
    replayOne rule now q jobId = (false, q) := by
  unfold replayOne
  rw [Queue.getJob_eq_none.mpr h]

/-- What one replay can do: nothing, for a job that is not stored, or else add one numbered job and
remove some job. -/
theorem replayOne_cases (rule : CleanRule) (now : ℕ) (h : Primary q) (jobId : String) :
    (jobId ∉ q.ids ∧ replayOne rule now q jobId = (false, q)) ∨
      ∃ q', replayOne rule now q jobId = (true, q') ∧ Primary q' ∧ q'.counter = q.counter + 1 ∧
        ∀ id ∈ q'.ids, id = toString (q.counter + 1) ∨ id ∈ q.ids := by
  by_cases hid : jobId ∈ q.ids
  · right
    obtain ⟨job, hjob, rfl⟩ := Queue.mem_ids.mp hid
    have hcopy := h.withCopy now job
    have hids : ∀ id ∈ (Dlq.withCopy q now job).ids,
        id = toString (q.counter + 1) ∨ id ∈ q.ids := by
      intro id hid
      rcases List.mem_cons.mp hid with rfl | hid
      · exact .inl (h.copyOf_id job)
      · exact .inr hid
    have hrun : replayOne rule now q job.id =
        (true, (Dlq.withCopy q now job).cleanOne rule .failed) := by
      unfold replayOne
      rw [Queue.getJob_of_mem h.wellFormed.nodup hjob]
      show (true, ((q.add _ _ _ now).2.clean rule 1 .failed)) = _
      rw [h.add_eq, clean_one]
    refine ⟨_, hrun, ?_⟩
    unfold Queue.cleanOne
    split
    · exact ⟨hcopy.remove _, rfl, fun id hid => hids id (Queue.mem_ids_remove.mp hid).1⟩
    · exact ⟨hcopy, rfl, hids⟩
  · exact .inl ⟨hid, replayOne_of_not_mem hid⟩

end One

/-! ## The loop -/

theorem replayAll_cons {dlqJob : DLQJobInfo} {q q' : Queue} {answer : Bool}
    (hrun : replayOne rule now q dlqJob.id = (answer, q')) (dlqJobs : List DLQJobInfo)
    (replayed : ℕ) :
    replayAll rule now (dlqJob :: dlqJobs) replayed q =
      replayAll rule now dlqJobs (if answer then replayed + 1 else replayed) q' := by
  rw [replayAll, hrun]

/-- An id that is gone stays gone, and is not replayed. -/
theorem replayAll_of_gone (rule : CleanRule) (now : ℕ) {id : String} (dlqJobs : List DLQJobInfo)
    {q : Queue} (h : Primary q)
    (replayed : ℕ) (hid : id ∉ q.ids) (hold : ∀ n, q.counter < n → id ≠ toString n) :
    id ∉ (replayAll rule now dlqJobs replayed q).2.ids ∧
      (replayAll rule now dlqJobs replayed q).1 ≤ replayed + dlqJobs.length ∧
      (id ∈ dlqJobs.map DLQJobInfo.id →
        (replayAll rule now dlqJobs replayed q).1 < replayed + dlqJobs.length) := by
  induction dlqJobs generalizing q replayed with
  | nil => exact ⟨hid, le_refl _, fun hmem => absurd hmem List.not_mem_nil⟩
  | cons dlqJob dlqJobs ih =>
    rw [List.map_cons, List.length_cons]
    rcases replayOne_cases rule now h dlqJob.id with
      ⟨hnone, hrun⟩ | ⟨q', hrun, hq', hcounter, hids⟩
    · -- the listed job is gone: this round counts nothing
      rw [replayAll_cons hrun, if_neg (by decide)]
      obtain ⟨hgone, hle, -⟩ := ih h replayed hid hold
      exact ⟨hgone, by omega, fun _ => by omega⟩
    · have hgone' : id ∉ q'.ids := fun hmem =>
        (hids id hmem).elim (hold _ (Nat.lt_succ_self _)) hid
      obtain ⟨hgone, hle, hlt⟩ := ih hq' (replayed + 1) hgone' fun n hn => hold n (by omega)
      rw [replayAll_cons hrun, if_pos rfl]
      refine ⟨hgone, by omega, fun hmem => ?_⟩
      rcases List.mem_cons.mp hmem with rfl | hmem
      · -- a job that is replayed is stored
        have hstored : dlqJob.id ∈ q.ids := by
          by_contra hnone
          rw [replayOne_of_not_mem hnone] at hrun
          simp at hrun
        exact absurd hstored hid
      · have := hlt hmem
        omega

/-- The rule picks the jobs of a listing one after the other. -/
def Picks (rule : CleanRule) : List Job → List Job → Prop
  | [], _ => True
  | job :: listed, rest => rule.pick (job :: listed ++ rest) = some job ∧ Picks rule listed rest

/-- A copy under a number the queue has still to reach. -/
def IsNumberedCopy (q : Queue) (job copy : Job) : Prop :=
  copy.name = job.name ∧ copy.data = job.data ∧ ∃ n, q.counter < n ∧ copy.id = toString n

section Loop

variable {q : Queue} {listed rest : List Job}

theorem id_mem_of_mem_inState {st : JobState} {x : Job} (hx : x ∈ q.inState st) : x.id ∈ q.ids :=
  Queue.mem_ids.mpr ⟨x, (Queue.mem_inState.mp hx).1, rfl⟩

/-- After the first failed job has been removed the others are left. -/
theorem inState_failed_remove_head (h : Primary q) {job : Job} {others : List Job}
    (hfailed : q.inState .failed = job :: others) :
    ((withCopy q now job).remove job.id).inState .failed = others := by
  rw [Queue.inState_remove, h.inState_withCopy, if_neg (by decide), hfailed,
    List.filter_cons_of_neg (by simp)]
  have hnodup : (job :: others).map Job.id |>.Nodup := by
    rw [← hfailed]
    exact h.wellFormed.nodup.sublist (List.filter_sublist.map Job.id)
  rw [List.map_cons, List.nodup_cons] at hnodup
  refine List.filter_eq_self.mpr fun j hj => decide_eq_true fun hid => hnodup.1 ?_
  exact List.mem_map.mpr ⟨j, hj, hid⟩

theorem inState_waiting_remove_failed (h : Primary q) {job x : Job}
    (hx : x ∈ q.inState .failed) :
    ((withCopy q now job).remove x.id).inState .waiting =
      copyOf q now job :: q.inState .waiting := by
  obtain ⟨hx, hst⟩ := Queue.mem_inState.mp hx
  rw [Queue.inState_remove_of_state_ne (h.withCopy now job).wellFormed.nodup
    (List.mem_cons_of_mem _ hx) (by rw [hst]; decide), h.inState_withCopy, if_pos rfl]

/-- While the rule picks the listed jobs, they move one after the other. -/
theorem replayAll_of_picks (now : ℕ) (h : Primary q) (replayed : ℕ)
    (hfailed : q.inState .failed = listed ++ rest) (hpicks : Picks rule listed rest) :
    ∃ q' copies, replayAll rule now (listed.map toDLQJobInfo) replayed q =
        (replayed + listed.length, q') ∧
      q'.inState .failed = rest ∧ q'.inState .waiting = copies ++ q.inState .waiting ∧
      List.Forall₂ (IsNumberedCopy q) listed.reverse copies := by
  induction listed generalizing q replayed with
  | nil => exact ⟨q, [], rfl, hfailed, rfl, .nil⟩
  | cons job listed ih =>
    obtain ⟨hpick, hpicks⟩ := hpicks
    have hmem : job ∈ q.inState .failed := by
      rw [hfailed]
      exact List.mem_cons_self
    have hrun : replayOne rule now q job.id = (true, (withCopy q now job).remove job.id) :=
      replayOne_of_mem h (Queue.mem_inState.mp hmem).1 (by rw [hfailed, hpick])
    obtain ⟨q', copies, hq', hrest, hwaiting, hcopies⟩ := ih ((h.withCopy now job).remove job.id)
      (replayed + 1) (inState_failed_remove_head h hfailed) hpicks
    refine ⟨q', copies ++ [copyOf q now job], ?_, hrest, ?_, ?_⟩
    · rw [List.map_cons, replayAll_cons hrun, if_pos rfl, hq', List.length_cons]
      congr 1
      omega
    · rw [hwaiting, inState_waiting_remove_failed h hmem, List.append_assoc]
      rfl
    · rw [List.reverse_cons]
      refine List.rel_append ?_ (.cons ⟨rfl, rfl, _, Nat.lt_succ_self _, h.copyOf_id job⟩ .nil)
      refine hcopies.imp fun a b hab => ?_
      obtain ⟨hname, hdata, n, hn, hid⟩ := hab
      exact ⟨hname, hdata, n, Nat.lt_of_succ_lt hn, hid⟩

/-- If all listed jobs are answered for and no other has left, the rule has picked the listed jobs:
any other pick loses a job, one still to be replayed or one to be kept. -/
theorem picks_of_replayAll (h : Primary q) (replayed : ℕ)
    (hfailed : q.inState .failed = listed ++ rest)
    (hcount : (replayAll rule now (listed.map toDLQJobInfo) replayed q).1 =
      replayed + listed.length)
    (hrest : (replayAll rule now (listed.map toDLQJobInfo) replayed q).2.inState .failed = rest) :
    Picks rule listed rest := by
  induction listed generalizing q replayed with
  | nil => trivial
  | cons job listed ih =>
    have hne : job :: listed ++ rest ≠ [] := by simp
    obtain ⟨x, hpick⟩ := rule.pick_of_ne_nil hne
    have hx : x ∈ q.inState .failed := by
      rw [hfailed]
      exact rule.pick_mem hpick
    have hmem : job ∈ q.inState .failed := by
      rw [hfailed]
      exact List.mem_cons_self
    have hrun : replayOne rule now q job.id = (true, (withCopy q now job).remove x.id) :=
      replayOne_of_mem h (Queue.mem_inState.mp hmem).1 (by rw [hfailed, hpick])
    have hstep : replayAll rule now ((job :: listed).map toDLQJobInfo) replayed q =
        replayAll rule now (listed.map toDLQJobInfo) (replayed + 1)
          ((withCopy q now job).remove x.id) := by
      rw [List.map_cons, replayAll_cons hrun, if_pos rfl]
    rw [hstep, List.length_cons] at hcount
    rw [hstep] at hrest
    by_cases hxj : x = job
    · subst hxj
      refine ⟨hpick, ih ((h.withCopy now x).remove x.id) (replayed + 1)
        (inState_failed_remove_head h hfailed) (by omega) hrest⟩
    · -- the job lost instead is neither replayed later nor kept
      obtain ⟨hgone, -, hlt⟩ := replayAll_of_gone rule now
        (listed.map toDLQJobInfo) ((h.withCopy now job).remove x.id) (replayed + 1)
        (fun hmem => (Queue.mem_ids_remove.mp hmem).2 rfl) fun n hn heq =>
          h.wellFormed.fresh n (Nat.lt_of_succ_lt hn) (heq ▸ id_mem_of_mem_inState hx)
      rw [hfailed] at hx
      rcases List.mem_append.mp hx with hx | hx
      · have hx := (List.mem_cons.mp hx).resolve_left hxj
        have hmem : x.id ∈ (listed.map toDLQJobInfo).map DLQJobInfo.id :=
          List.mem_map.mpr ⟨toDLQJobInfo x, List.mem_map_of_mem hx, rfl⟩
        have := hlt hmem
        rw [List.length_map] at this
        omega
      · rw [← hrest] at hx
        exact absurd (id_mem_of_mem_inState hx) hgone

theorem picks_iff : Picks rule listed rest ↔
    ∀ i < listed.length, rule.pick ((listed ++ rest).drop i) = (listed ++ rest)[i]? := by
  induction listed with
  | nil => exact iff_of_true trivial fun i hi => absurd hi (Nat.not_lt_zero i)
  | cons job listed ih =>
    rw [Picks, ih, List.length_cons]
    constructor
    · intro ⟨hpick, hpicks⟩ i hi
      cases i with
      | zero => exact hpick
      | succ i => exact hpicks i (by omega)
    · intro h
      exact ⟨h 0 (Nat.succ_pos _), fun i hi => h (i + 1) (by omega)⟩

theorem picksListed_iff (limit : ℕ) : PicksListed rule q limit ↔
    Picks rule ((q.inState .failed).take limit) ((q.inState .failed).drop limit) := by
  rw [picks_iff, List.take_append_drop, List.length_take]
  rfl

/-- For BullMQ's rule the condition is that there are not two failed jobs. -/
theorem picksListed_oldest_iff (h : q.ids.Nodup) {limit : ℕ} (hlimit : 1 ≤ limit) :
    PicksListed .oldest q limit ↔ (q.inState .failed).length ≤ 1 := by
  have hnodup : (q.inState .failed).Nodup := (h.of_map Job.id).sublist List.filter_sublist
  unfold PicksListed
  generalize q.inState .failed = failed at hnodup
  show (∀ i < min limit failed.length, (failed.drop i).getLast? = failed[i]?) ↔ _
  constructor
  · intro hpicks
    by_contra hlong
    have hlast := hpicks 0 (by omega)
    rw [List.drop_zero, List.getLast?_eq_getElem?, List.getElem?_inj (by omega) hnodup] at hlast
    omega
  · intro hshort i hi
    obtain rfl : i = 0 := by omega
    rw [List.drop_zero, List.getLast?_eq_getElem?]
    congr 1
    omega

end Loop

/-! ## The calls -/

section Calls

variable {ε : Type} {dlqConfig : Option DLQConfig} {answers : ℕ → Answer ε} (rule now)

theorem run_replayJob (henabled : isEnabled dlqConfig) (hanswers : ∀ n, (answers n).IsAnswered)
    (jobId : String) (r : Remote Queue) :
    ∃ calls, (replayJob dlqConfig rule answers now jobId none).run r =
      (.ok (replayOne rule now r.server jobId).1,
        ⟨(replayOne rule now r.server jobId).2, calls⟩) := by
  have hget : (getJob answers jobId).run r =
      (.ok (r.server.getJob jobId), ⟨r.server, r.calls + 1⟩) :=
    run_call_of_answered (hanswers _).eq
  unfold replayJob replayOne
  rw [if_pos henabled]
  cases hjob : r.server.getJob jobId with
  | none =>
    rw [hjob] at hget
    exact ⟨_, Async.run_tryCatch_of_ok (Async.run_bind_of_ok hget)⟩
  | some job =>
    rw [hjob] at hget
    refine ⟨r.calls + 1 + 1 + 1, Async.run_tryCatch_of_ok ?_⟩
    refine (Async.run_bind_of_ok hget).trans ?_
    refine (Async.run_bind_of_ok (run_call_of_answered (hanswers _).eq)).trans ?_
    exact Async.run_bind_of_ok (run_call_of_answered (hanswers _).eq)

/-- With every call answered the loop does what `replayAll` says. -/
theorem run_replayJobs (henabled : isEnabled dlqConfig) (hanswers : ∀ n, (answers n).IsAnswered)
    (dlqJobs : List DLQJobInfo) (replayed : ℕ) (r : Remote Queue) :
    ∃ calls, (replayJobs dlqConfig rule answers now dlqJobs replayed).run r =
      (.ok (replayAll rule now dlqJobs replayed r.server).1,
        ⟨(replayAll rule now dlqJobs replayed r.server).2, calls⟩) := by
  induction dlqJobs generalizing replayed r with
  | nil => exact ⟨r.calls, rfl⟩
  | cons dlqJob dlqJobs ih =>
    obtain ⟨calls, hjob⟩ := run_replayJob rule now henabled hanswers dlqJob.id r
    obtain ⟨calls', hjobs⟩ := ih
      (if (replayOne rule now r.server dlqJob.id).1 then replayed + 1 else replayed)
      ⟨(replayOne rule now r.server dlqJob.id).2, calls⟩
    refine ⟨calls', ?_⟩
    rw [replayJobs, Async.run_bind_of_ok hjob, hjobs, replayAll]

theorem run_getDLQJobs (henabled : isEnabled dlqConfig) (hanswers : ∀ n, (answers n).IsAnswered)
    {limit : ℕ} (hlimit : 1 ≤ limit) (r : Remote Queue) :
    (getDLQJobs dlqConfig answers limit).run r =
      (.ok (((r.server.inState .failed).take limit).map toDLQJobInfo),
        ⟨r.server, r.calls + 1⟩) := by
  unfold getDLQJobs
  rw [if_pos henabled, ← range_zero _ hlimit]
  apply Async.run_tryCatch_of_ok
  exact Async.run_bind_of_ok (run_call_of_answered (hanswers _).eq)

theorem run_replayDLQ (henabled : isEnabled dlqConfig) (hanswers : ∀ n, (answers n).IsAnswered)
    {limit : ℕ} (hlimit : 1 ≤ limit) (q : Queue) :
    ∃ calls, (replayDLQ dlqConfig rule answers now limit).run ⟨q, 0⟩ =
      (.ok (replayAll rule now (((q.inState .failed).take limit).map toDLQJobInfo) 0 q).1,
        ⟨(replayAll rule now (((q.inState .failed).take limit).map toDLQJobInfo) 0 q).2,
          calls⟩) := by
  have hlist := run_getDLQJobs henabled hanswers hlimit ⟨q, 0⟩
  obtain ⟨calls, hjobs⟩ := run_replayJobs rule now henabled hanswers
    (((q.inState .failed).take limit).map toDLQJobInfo) 0 ⟨q, 0 + 1⟩
  refine ⟨calls, ?_⟩
  unfold replayDLQ
  rw [if_pos henabled]
  apply Async.run_tryCatch_of_ok
  exact (Async.run_bind_of_ok hlist).trans hjobs

/-- **The listed jobs move exactly when `clean` picks them.** With every call answered, `replayDLQ`
replays the jobs listed, removes them and no others, and returns their number, if and only if each
time it is called `clean` chooses the failed job whose copy was just added. -/
theorem moves_iff (henabled : isEnabled dlqConfig) (hanswers : ∀ n, (answers n).IsAnswered)
    {q : Queue} (hq : Primary q) {limit : ℕ} (hlimit : 1 ≤ limit) :
    (∃ replayed r, (replayDLQ dlqConfig rule answers now limit).run ⟨q, 0⟩ = (.ok replayed, r) ∧
      Moves q limit replayed r.server) ↔ PicksListed rule q limit := by
  obtain ⟨calls, hrun⟩ := run_replayDLQ rule now henabled hanswers hlimit q
  have hfailed := (List.take_append_drop limit (q.inState .failed)).symm
  rw [picksListed_iff]
  constructor
  · intro ⟨replayed, r, hr, hmoves⟩
    rw [hrun] at hr
    obtain ⟨hcount, rfl⟩ := Prod.mk.inj hr
    obtain rfl := Except.ok.inj hcount
    refine picks_of_replayAll hq 0 hfailed ?_ hmoves.failed
    rw [hmoves.replayed, List.length_take, Nat.zero_add]
  · intro hpicks
    obtain ⟨q', copies, hq', hrest, hwaiting, hcopies⟩ :=
      replayAll_of_picks now hq 0 hfailed hpicks
    refine ⟨_, _, hrun, ?_⟩
    rw [hq']
    refine ⟨?_, hrest, copies, hwaiting, hcopies.imp fun job copy hcopy => ?_⟩
    · rw [List.length_take, Nat.zero_add]
    · obtain ⟨hname, hdata, n, hn, hid⟩ := hcopy
      exact ⟨hname, hdata, hid ▸ hq.wellFormed.fresh n hn⟩

end Calls

/-! ## One failed job and two -/

/-- A job that failed. -/
def failedJob (n : ℕ) : Job where
  id := toString n
  name := "email"
  data := .num n
  opts := {}
  attemptsMade := 1
  timestamp := n
  state := .failed

/-- A queue of `n` failed jobs. -/
def failedQueue (n : ℕ) : Queue where
  jobs := ((List.range' 1 n).map failedJob).reverse
  counter := n
  defaultJobOptions := {}

theorem primary_failedQueue (n : ℕ) : Primary (failedQueue n) where
  wellFormed := by
    have hids : (failedQueue n).ids = ((List.range' 1 n).map toString).reverse := by
      simp only [Queue.ids, failedQueue, List.map_reverse, List.map_map]
      rfl
    constructor
    · rw [hids, List.nodup_reverse]
      exact (List.nodup_range' 1).map Queue.toString_injective
    · intro k hk hmem
      rw [hids, List.mem_reverse, List.mem_map] at hmem
      obtain ⟨i, hi, heq⟩ := hmem
      have hk : n < k := hk
      rw [Queue.toString_injective heq, List.mem_range'_1] at hi
      omega
  customId := rfl
  waits := by
    show Queue.initialState (JobsOptions.spread {} {}) = .waiting
    decide +kernel

/-- The only failed job moves. -/
theorem moves_failedQueue_one :
    ∃ replayed r, (replayDLQ (ε := Empty) (some { enabled := true }) .oldest (fun _ => .answered) 5
        10).run ⟨failedQueue 1, 0⟩ = (.ok replayed, r) ∧
      Moves (failedQueue 1) 10 replayed r.server := by
  have hpicks : PicksListed .oldest (failedQueue 1) 10 :=
    (picksListed_oldest_iff (primary_failedQueue 1).wellFormed.nodup (by decide)).mpr (by decide)
  have hanswers : ∀ n : ℕ, ((fun _ => .answered : ℕ → Answer Empty) n).IsAnswered :=
    fun _ => trivial
  exact (moves_iff .oldest 5 rfl hanswers (primary_failedQueue 1) (by decide)).mpr hpicks

/-- **The wrong job is removed.** Of two failed jobs the newer one is replayed and kept, the older
one disappears without a copy. -/
theorem not_moves_failedQueue_two :
    Primary (failedQueue 2) ∧
      ∃ r, (replayDLQ (ε := Empty) (some { enabled := true }) .oldest (fun _ => .answered) 5
          1).run ⟨failedQueue 2, 0⟩ = (.ok 1, r) ∧
        r.server.inState .failed = [failedJob 2] ∧
        (r.server.inState .waiting).map Job.data = [(failedJob 2).data] ∧
        ¬ Moves (failedQueue 2) 1 1 r.server := by
  refine ⟨primary_failedQueue 2, _, rfl, ?_, ?_, fun hmoves => ?_⟩
  · decide +kernel
  · decide +kernel
  · exact absurd hmoves.failed (by decide +kernel)

end KitiumJobQueue.Dlq
