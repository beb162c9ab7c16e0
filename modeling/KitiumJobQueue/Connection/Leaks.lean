import KitiumJobQueue.Connection.Managers

/-!
# What stays open

When a `disconnect` has resolved and no call is in flight, every connection that was created is to
have been quit and every queue client to have been closed (`Closed`). `closed_of_run` says that the
connections of `RedisConnectionManager` are all quit as long as it replaces none that is open, and
creates none while a `disconnect` is about to forget it. No `disconnect` reaches a connection that
was replaced, or that the adapter has created: it stays open (`not_allReleased_of_careless`).
-/

namespace KitiumJobQueue.Connection

/-- The fields that hold a connection. -/
inductive Slot
  | redisManager
  | adapter
  deriving DecidableEq

/-- What the managers hold. -/
def Managers.held (m : Managers) : Slot → Option ℕ
  | .redisManager => m.connection
  | .adapter => m.adapter.bind BullMQAdapter.redisConnection

/-- The connection that `RedisConnectionManager` holds, if any, has been quit. -/
abbrev Managers.Quit (m : Managers) : Prop := m.connections.Free m.held .redisManager

/-- Once a `disconnect` has resolved and no call is in flight, nothing is open. -/
def Closed (w : World) : Prop :=
  w.disconnected = true → w.inFlight = [] →
    w.managers.connections.AllReleased ∧ w.managers.queueClients.AllReleased

/-! ## The condition -/

/-- A `disconnect` waits for the connection to quit, or is back from there. -/
def World.Quitting (w : World) : Prop :=
  .quitting ∈ w.inFlight ∨ .redisDisconnected ∈ w.inFlight

instance (w : World) : Decidable w.Quitting := inferInstanceAs (Decidable (_ ∨ _))

/-- `RedisConnectionManager` creates a connection only when the one it holds has been quit and no
`disconnect` is about to forget the new one, and the adapter creates none. -/
def Careful (w : World) : Event → Prop
  | .connect o => w.managers.Creates o → w.managers.Quit ∧ ¬ w.Quitting
  | .registerWorker o =>
    ∀ a ∈ w.managers.adapter, a.redisConnection = none → o.connectionCreated = false
  | .disconnect => True
  | .resume call o =>
    w.inFlight[call]? = some .reusing ∨ w.inFlight[call]? = some .waitingForReady →
      o.resolves = true → o.connectionCreated = false

instance (w : World) : (e : Event) → Decidable (Careful w e)
  | .connect _ | .resume _ _ => inferInstanceAs (Decidable (_ → _))
  | .registerWorker o => inferInstanceAs (Decidable
      (∀ a ∈ w.managers.adapter, a.redisConnection = none → o.connectionCreated = false))
  | .disconnect => inferInstanceAs (Decidable True)

/-! ## What a call keeps -/

/-- Everything open is held, by `RedisConnectionManager`. -/
structure Kept (m : Managers) : Prop where
  fits : m.connections.Fits m.held
  accounted : m.connections.Accounted m.held
  adapter : m.held .adapter = none
  queueClients : m.queueClients.opened = 0

/-- A call has kept that, and when it waits for the connection to quit or is back from there, what
is held has been quit. -/
structure Keeps (m : Managers) (p : Progress) : Prop where
  kept : Kept p.2
  keepsQuit : m.Quit → p.2.Quit
  quit : p.1 = some .quitting ∨ p.1 = some .redisDisconnected → p.2.Quit

theorem kept_init : Kept {} where
  fits := by
    refine ⟨fun k h hk => ?_, fun h hh => absurd hh List.not_mem_nil, fun k k' h hk => ?_⟩ <;>
      cases k <;> exact absurd hk (Option.some_ne_none h).symm
  accounted h hlt := absurd hlt (Nat.not_lt_zero h)
  adapter := rfl
  queueClients := rfl

namespace Kept

variable {m m' : Managers} {phase : Option Phase} {o : Outcome}

theorem allReleased (hm : Kept m) (hquit : m.Quit) :
    m.connections.AllReleased ∧ m.queueClients.AllReleased := by
  refine ⟨(Ledger.allReleased_iff hm.fits).mpr ⟨hm.accounted, fun k => ?_⟩, fun h hlt => ?_⟩
  · cases k with
    | redisManager => exact hquit
    | adapter =>
      intro h hk
      exact absurd (hm.adapter.symm.trans hk) (Option.some_ne_none h).symm
  · rw [hm.queueClients] at hlt
    exact absurd hlt (Nat.not_lt_zero h)

/-- Only what is held and what was created matters. -/
theorem keeps_of_eq (hm : Kept m) (hheld : m'.held = m.held)
    (hconnections : m'.connections = m.connections)
    (hqueueClients : m'.queueClients.opened = m.queueClients.opened)
    (hphase : phase ≠ some .quitting ∧ phase ≠ some .redisDisconnected) :
    Keeps m (phase, m') := by
  refine ⟨⟨?_, ?_, ?_, hqueueClients.trans hm.queueClients⟩, ?_, ?_⟩
  · rw [hconnections, hheld]
    exact hm.fits
  · rw [hconnections, hheld]
    exact hm.accounted
  · rw [hheld]
    exact hm.adapter
  · intro hquit
    unfold Managers.Quit
    rw [hconnections, hheld]
    exact hquit
  · rintro (h | h)
    · exact absurd h hphase.1
    · exact absurd h hphase.2

/-! ### Connecting -/

theorem create (hm : Kept m) (hquit : m.Quit) : Kept m.created := by
  have hheld : m.created.held = m.connections.put m.held .redisManager := by
    funext k
    cases k <;> rfl
  refine ⟨?_, ?_, hm.adapter, hm.queueClients⟩
  · rw [hheld]
    exact hm.fits.put .redisManager
  · rw [hheld]
    exact (Ledger.accounted_put_iff hm.fits).mpr ⟨hm.accounted, hquit⟩

/-- A `connect` creates a connection, or changes nothing. -/
theorem connect (hm : Kept m) :
    m.Creates o ∧ m.connect o = (some .waitingForReady, m.created) ∨ Keeps m (m.connect o) := by
  rcases m.connect_cases o with ⟨hsame, hphase⟩ | hcreates
  · have hkeeps : Keeps m ((m.connect o).1, m) := hm.keeps_of_eq rfl rfl rfl (by
      rcases hphase with h | h <;> rw [h] <;> decide)
    refine .inr ⟨?_, ?_, ?_⟩
    · rw [hsame]
      exact hm
    · rw [hsame]
      exact id
    · rw [hsame]
      exact hkeeps.quit
  · exact .inl hcreates

/-- A new adapter holds no connection. -/
theorem connected (hm : Kept m) (hnone : o.resolves = true → o.connectionCreated = false) :
    Keeps m (none, m.connected o) := by
  have hheld : Managers.held { m with adapter := some {} } = m.held := by
    funext k
    cases k with
    | redisManager => rfl
    | adapter => exact hm.adapter.symm
  rcases m.connected_cases o with ⟨-, heq | heq⟩ | ⟨⟨hresolves, hcreated⟩, -⟩
  · rw [heq]
    exact hm.keeps_of_eq rfl rfl rfl (by decide)
  · rw [heq]
    exact hm.keeps_of_eq hheld rfl rfl (by decide)
  · exact absurd (hcreated.symm.trans (hnone hresolves)) (by decide)

theorem registerWorker (hm : Kept m)
    (hnone : ∀ a ∈ m.adapter, a.redisConnection = none → o.connectionCreated = false) :
    Keeps m (none, m.registerWorker o) := by
  rcases m.registerWorker_cases o with heq | ⟨workers, heq⟩ | ⟨a, ha, hconnection, hcreated, -⟩
  · rw [heq]
    exact hm.keeps_of_eq rfl rfl rfl (by decide)
  · rw [heq]
    exact hm.keeps_of_eq rfl rfl rfl (by decide)
  · exact absurd (hcreated.symm.trans (hnone a ha hconnection)) (by decide)

/-! ### Disconnecting -/

theorem redisDisconnect (hm : Kept m) : Keeps m m.redisDisconnect := by
  rcases m.redisDisconnect_cases with ⟨hnone, heq⟩ | ⟨connection, hconnection, heq⟩
  · have hquit : m.Quit := by
      intro h hk
      exact absurd (hk.symm.trans hnone) (Option.some_ne_none h)
    rw [heq]
    exact ⟨hm, id, fun _ => hquit⟩
  · have hheld : ∀ h ∈ [connection], ∃ k, m.held k = some h := by
      intro h hmem
      obtain rfl := List.mem_singleton.mp hmem
      exact ⟨.redisManager, hconnection⟩
    have hquit : Managers.Quit { m with connections := m.connections.release connection } := by
      intro h hk
      obtain rfl : connection = h := Option.some.inj (hconnection.symm.trans hk)
      exact Ledger.mem_released_release.mpr (.inl rfl)
    rw [heq]
    exact ⟨⟨hm.fits.releaseAll hheld, (Ledger.accounted_releaseAll_iff hheld).mpr hm.accounted,
      hm.adapter, hm.queueClients⟩, fun _ => hquit, fun _ => hquit⟩

theorem closeWorkers (hm : Kept m) (array next : ℕ) : Keeps m (m.closeWorkers array next) := by
  rcases m.closeWorkers_cases array next with ⟨next', heq⟩ | ⟨queueClient, -, heq⟩ | ⟨-, heq⟩
  · rw [heq]
    exact hm.keeps_of_eq rfl rfl rfl (by simp)
  · rw [heq]
    exact hm.keeps_of_eq rfl rfl rfl (by decide)
  · have hm' : Keeps m (none, m.noWorkers) := hm.keeps_of_eq rfl rfl rfl (by decide)
    have hquits := Kept.redisDisconnect hm'.kept
    rw [heq]
    exact ⟨hquits.kept, hquits.keepsQuit, hquits.quit⟩

/-- What `RedisConnectionManager` forgets has been quit. -/
theorem redisDisconnected (hm : Kept m) (hquit : m.Quit) :
    Keeps m (some .redisDisconnected, m.redisDisconnected) := by
  have hheld : m.redisDisconnected.held = Ledger.drop m.held .redisManager := by
    funext k
    cases k <;> rfl
  have hquit' : m.redisDisconnected.Quit := by
    unfold Managers.Quit
    rw [hheld]
    exact Ledger.free_drop_self m.connections m.held .redisManager
  refine ⟨⟨?_, ?_, hm.adapter, hm.queueClients⟩, fun _ => hquit', fun _ => hquit'⟩
  · rw [hheld]
    exact hm.fits.drop .redisManager
  · rw [hheld]
    exact (Ledger.accounted_drop_iff hm.fits).mpr ⟨hm.accounted, hquit⟩

theorem disconnected (hm : Kept m) : Keeps m (none, m.disconnected) := by
  refine hm.keeps_of_eq ?_ rfl rfl (by decide)
  funext k
  cases k with
  | redisManager => rfl
  | adapter => exact hm.adapter.symm

end Kept

/-! ## The run -/

/-- Everything open is held, and what is held has been quit while a `disconnect` is about to forget
it, and once one has resolved. -/
structure Sound (w : World) : Prop where
  kept : Kept w.managers
  quit : w.disconnected = true ∨ w.Quitting → w.managers.Quit

variable {w w' : World}

theorem sound_init : Sound {} where
  kept := kept_init
  quit _ h hk := absurd hk (Option.some_ne_none h).symm

/-- What calls wait for after a step. -/
theorem quitting_after {others : List Phase} {p : Progress} {disconnected : Bool}
    (h : (World.after others p disconnected).Quitting) :
    (p.1 = some .quitting ∨ p.1 = some .redisDisconnected) ∨
      .quitting ∈ others ∨ .redisDisconnected ∈ others := by
  rcases h with h | h
  · exact (List.mem_append.mp h).imp (fun h => .inl (Option.mem_toList.mp h)) .inl
  · exact (List.mem_append.mp h).imp (fun h => .inr (Option.mem_toList.mp h)) .inr

theorem sound_after (hw : Sound w) {others : List Phase} {p : Progress} {disconnected : Bool}
    (hp : Keeps w.managers p) (hothers : others ⊆ w.inFlight)
    (hdisconnected : disconnected = true → w.disconnected = true ∨ w.Quitting) :
    Sound (.after others p disconnected) := by
  refine ⟨hp.kept, fun h => ?_⟩
  rcases h with h | h
  · exact hp.keepsQuit (hw.quit (hdisconnected h))
  · rcases quitting_after h with h | h
    · exact hp.quit h
    · exact hp.keepsQuit (hw.quit (.inr (h.imp (hothers ·) (hothers ·))))

theorem sound_connect (hw : Sound w) {o : Outcome} (hcareful : Careful w (.connect o)) :
    Sound (.after w.inFlight (w.managers.connect o) false) := by
  rcases hw.kept.connect with ⟨hcreates, heq⟩ | hkeeps
  · obtain ⟨hquit, hquitting⟩ := hcareful hcreates
    rw [heq]
    refine ⟨hw.kept.create hquit, fun h => ?_⟩
    rcases h with h | h
    · exact absurd h Bool.false_ne_true
    · rcases quitting_after h with (h | h) | h
      · exact nomatch h
      · exact nomatch h
      · exact absurd h hquitting
  · exact sound_after hw hkeeps (List.Subset.refl _) fun h => absurd h Bool.false_ne_true

theorem sound_resume (hw : Sound w) {call : ℕ} {o : Outcome} (hcareful : Careful w (.resume call o))
    (h : w.resume call o = some w') : Sound w' := by
  obtain ⟨phase, p, hphase, hp, rfl⟩ := World.resume_eq_some h
  have hmem : phase ∈ w.inFlight := List.mem_of_getElem? hphase
  refine sound_after hw ?_ (fun q hq => List.mem_of_mem_eraseIdx hq) fun hlast => ?_
  · cases phase with
    | reusing =>
      exact Phase.resume_connect hp (.inl rfl) ▸ hw.kept.connected (hcareful (.inl hphase))
    | waitingForReady =>
      exact Phase.resume_connect hp (.inr rfl) ▸ hw.kept.connected (hcareful (.inr hphase))
    | closingWorker array next => exact Option.some.inj hp ▸ hw.kept.closeWorkers array next
    | closingQueueClient => exact Option.some.inj hp ▸ hw.kept.redisDisconnect
    | quitting =>
      exact Option.some.inj hp ▸ hw.kept.redisDisconnected (hw.quit (.inr (.inl hmem)))
    | redisDisconnected => exact Option.some.inj hp ▸ hw.kept.disconnected
  · rcases of_decide_eq_true hlast with hdisconnected | rfl
    · exact .inl hdisconnected
    · exact .inr (.inr hmem)

theorem sound_step {e : Event} (hw : Sound w) (hcareful : Careful w e)
    (h : system.step w e = some w') : Sound w' := by
  cases e with
  | connect o => exact Option.some.inj h ▸ sound_connect hw hcareful
  | registerWorker o =>
    exact Option.some.inj h ▸ sound_after hw (hw.kept.registerWorker hcareful)
      (List.Subset.refl _) fun h => absurd h Bool.false_ne_true
  | disconnect =>
    exact Option.some.inj h ▸ sound_after hw (hw.kept.closeWorkers _ 0)
      (List.Subset.refl _) .inl
  | resume call o => exact sound_resume hw hcareful h

/-- **In a run of careful steps nothing is open once a `disconnect` has resolved and no call is in
flight.** -/
theorem closed_of_run (es : List Event) (hcareful : system.StepsMeet Careful {} es)
    (hrun : system.runFrom {} es = some w) : Closed w := by
  have hw : Sound w :=
    System.invariant_of_stepsMeet (fun _ _ _ hw hc hs => sound_step hw hc hs) sound_init hcareful
      hrun
  exact fun hdisconnected _ => hw.kept.allReleased (hw.quit (.inl hdisconnected))

/-- A connection that two calls of `connect` wait for, whose adapters cannot connect; another one,
which times out; and a `disconnect` after each. -/
def failures : List Event :=
  [.connect {}, .connect { ready := true }, .registerWorker {},
    .resume 0 { connectionCreated := false }, .resume 0 { connectionCreated := false },
    .registerWorker { connectionCreated := false }, .disconnect, .resume 0 {}, .resume 0 {},
    .connect {}, .resume 0 { resolves := false }, .disconnect, .disconnect, .resume 1 {},
    .resume 0 { resolves := false }, .resume 0 {}, .resume 0 {}]

theorem closed_failures :
    ∃ w : World, system.runFrom {} failures = some w ∧ w.disconnected = true ∧ w.inFlight = [] ∧
      w.managers.connections.opened = 2 ∧ Closed w :=
  ⟨_, rfl, rfl, rfl, rfl, closed_of_run failures (by decide +kernel) rfl⟩

/-- A `connect` that succeeds and a `disconnect`: the connection of the adapter stays open. -/
theorem not_closed_connected :
    ¬ ∀ (es : List Event) (w : World), system.runFrom {} es = some w → Closed w := by
  intro hclaim
  have hclosed := hclaim
    [.connect {}, .resume 0 {}, .disconnect, .resume 0 {}, .resume 0 {}, .resume 0 {}] _ rfl rfl rfl
  exact absurd hclosed.1 (by decide)

/-! ## What is lost -/

/-- What a step can do to the connection that `RedisConnectionManager` holds, and to the ledger. -/
inductive Moves (held : Option ℕ) (l : Ledger) : Option ℕ → Ledger → Prop
  | kept : Moves held l held l
  | forgotten : Moves held l none l
  | created : Moves held l (some l.opened) l.next
  | adapterCreated : Moves held l held l.next
  | quit (c : ℕ) : held = some c → Moves held l held (l.release c)

/-- From one state of the managers to another. -/
abbrev Managers.MovesTo (m m' : Managers) : Prop :=
  Moves m.connection m.connections m'.connection m'.connections

section Moves

variable {m : Managers} {o : Outcome}

theorem moves_connect (m : Managers) (o : Outcome) : m.MovesTo (m.connect o).2 := by
  rcases m.connect_cases o with ⟨heq, -⟩ | ⟨-, heq⟩ <;> rw [heq]
  · exact .kept
  · exact .created

theorem moves_connected (m : Managers) (o : Outcome) : m.MovesTo (m.connected o) := by
  rcases m.connected_cases o with ⟨-, heq | heq⟩ | ⟨-, ⟨-, heq⟩ | ⟨-, heq⟩⟩ <;> rw [heq]
  · exact .kept
  · exact .kept
  · exact .adapterCreated
  · exact .adapterCreated

theorem moves_registerWorker (m : Managers) (o : Outcome) : m.MovesTo (m.registerWorker o) := by
  rcases m.registerWorker_cases o with heq | ⟨_, heq⟩ | ⟨_, -, -, -, _, heq⟩ <;> rw [heq]
  · exact .kept
  · exact .kept
  · exact .adapterCreated

theorem moves_redisDisconnect (m : Managers) : m.MovesTo m.redisDisconnect.2 := by
  rcases m.redisDisconnect_cases with ⟨-, heq⟩ | ⟨c, hc, heq⟩ <;> rw [heq]
  · exact .kept
  · rw [Managers.MovesTo, hc]
    exact .quit c rfl

theorem moves_closeWorkers (m : Managers) (array next : ℕ) :
    m.MovesTo (m.closeWorkers array next).2 := by
  rcases m.closeWorkers_cases array next with ⟨_, heq⟩ | ⟨_, -, heq⟩ | ⟨-, heq⟩ <;> rw [heq]
  · exact .kept
  · exact .kept
  · exact moves_redisDisconnect m.noWorkers

theorem moves_resume {phase : Phase} {p : Progress} (h : phase.resume m o = some p) :
    m.MovesTo p.2 := by
  cases phase with
  | reusing => exact Phase.resume_connect h (.inl rfl) ▸ moves_connected m o
  | waitingForReady => exact Phase.resume_connect h (.inr rfl) ▸ moves_connected m o
  | closingWorker array next => exact Option.some.inj h ▸ moves_closeWorkers m array next
  | closingQueueClient => exact Option.some.inj h ▸ moves_redisDisconnect m
  | quitting => exact Option.some.inj h ▸ .forgotten
  | redisDisconnected => exact Option.some.inj h ▸ .kept

theorem moves_step {w w' : World} {e : Event} (h : system.step w e = some w') :
    w.managers.MovesTo w'.managers := by
  cases e with
  | connect o => exact Option.some.inj h ▸ moves_connect w.managers o
  | registerWorker o => exact Option.some.inj h ▸ moves_registerWorker w.managers o
  | disconnect => exact Option.some.inj h ▸ moves_closeWorkers w.managers _ 0
  | resume call o =>
    obtain ⟨phase, p, -, hp, rfl⟩ := World.resume_eq_some h
    exact moves_resume hp

end Moves

/-- What is held and what was quit had been created. -/
structure Known (held : Option ℕ) (l : Ledger) : Prop where
  lt_of_held : ∀ c ∈ held, c < l.opened
  lt_of_released : ∀ c ∈ l.released, c < l.opened

/-- The connection is open, and `RedisConnectionManager`, which alone quits any, does not hold
it. -/
structure Lost (held : Option ℕ) (l : Ledger) (c : ℕ) : Prop where
  lt : c < l.opened
  notMem_released : c ∉ l.released
  notMem_held : c ∉ held

namespace Moves

variable {held held' : Option ℕ} {l l' : Ledger}

theorem known (h : Moves held l held' l') (hknown : Known held l) : Known held' l' := by
  obtain ⟨hheld, hreleased⟩ := hknown
  cases h with
  | kept => exact ⟨hheld, hreleased⟩
  | forgotten => exact ⟨fun _ hc => absurd hc (Option.some_ne_none _).symm, hreleased⟩
  | created =>
    refine ⟨fun c hc => ?_, fun c hc => Nat.lt_succ_of_lt (hreleased c hc)⟩
    obtain rfl := Option.some.inj hc
    exact Nat.lt_succ_self _
  | adapterCreated =>
    exact ⟨fun c hc => Nat.lt_succ_of_lt (hheld c hc),
      fun c hc => Nat.lt_succ_of_lt (hreleased c hc)⟩
  | quit c hc =>
    subst hc
    refine ⟨hheld, fun x hx => ?_⟩
    rcases Ledger.mem_released_release.mp hx with rfl | hx
    · exact hheld x rfl
    · exact hreleased x hx

/-- What is lost stays lost. -/
theorem lost (h : Moves held l held' l') {c : ℕ} (hlost : Lost held l c) : Lost held' l' c := by
  obtain ⟨hlt, hreleased, hheld⟩ := hlost
  cases h with
  | kept => exact ⟨hlt, hreleased, hheld⟩
  | forgotten => exact ⟨hlt, hreleased, fun hc => absurd hc (Option.some_ne_none c).symm⟩
  | created =>
    refine ⟨Nat.lt_succ_of_lt hlt, hreleased, fun hc => ?_⟩
    obtain rfl := Option.some.inj hc
    exact Nat.lt_irrefl _ hlt
  | adapterCreated => exact ⟨Nat.lt_succ_of_lt hlt, hreleased, hheld⟩
  | quit x hx =>
    subst hx
    refine ⟨hlt, fun hc => ?_, hheld⟩
    rcases Ledger.mem_released_release.mp hc with rfl | hc
    · exact hheld rfl
    · exact hreleased hc

end Moves

theorem known_of_run {es : List Event} (hrun : system.runFrom {} es = some w) :
    Known w.managers.connection w.managers.connections := by
  refine System.invariant
    (I := fun w : World => Known w.managers.connection w.managers.connections)
    (fun _ _ _ hw hstep => (moves_step hstep).known hw) ⟨fun c hc => ?_, fun c hc => ?_⟩ hrun
  · exact absurd hc (Option.some_ne_none c).symm
  · exact absurd hc List.not_mem_nil

theorem lost_of_run {c : ℕ} {es : List Event}
    (hlost : Lost w.managers.connection w.managers.connections c)
    (hrun : system.runFrom w es = some w') :
    Lost w'.managers.connection w'.managers.connections c :=
  System.invariant (I := fun w : World => Lost w.managers.connection w.managers.connections c)
    (fun _ _ _ hw hstep => (moves_step hstep).lost hw) hlost hrun

/-- A connection of the adapter is lost from the beginning. -/
theorem Known.lost_next {held : Option ℕ} {l : Ledger} (hknown : Known held l) :
    Lost held l.next l.opened where
  lt := Nat.lt_succ_self _
  notMem_released hc := Nat.lt_irrefl _ (hknown.lt_of_released _ hc)
  notMem_held hc := Nat.lt_irrefl _ (hknown.lt_of_held _ hc)

theorem Known.lost_connected {m : Managers} {o : Outcome}
    (hknown : Known m.connection m.connections)
    (hcreated : o.resolves = true ∧ o.connectionCreated = true) :
    Lost (m.connected o).connection (m.connected o).connections m.connections.opened := by
  rcases m.connected_cases o with ⟨hnot, -⟩ | ⟨-, ⟨-, heq⟩ | ⟨-, heq⟩⟩
  · exact absurd hcreated hnot
  · rw [heq]
    exact hknown.lost_next
  · rw [heq]
    exact hknown.lost_next

theorem Known.lost_registerWorker {m : Managers} {o : Outcome} {a : BullMQAdapter}
    (hknown : Known m.connection m.connections) (ha : m.adapter = some a)
    (hnone : a.redisConnection = none) (hcreated : o.connectionCreated = true) :
    Lost (m.registerWorker o).connection (m.registerWorker o).connections m.connections.opened := by
  simp only [Managers.registerWorker, ha, Managers.getOrCreateRedisConnection, hnone,
    Option.isSome_none, Bool.false_eq_true, if_false, hcreated, if_true]
  exact hknown.lost_next

/-- A connection that is replaced before it has quit is lost. -/
theorem Known.lost_connect {m : Managers} {o : Outcome} (hknown : Known m.connection m.connections)
    (hcreates : m.Creates o) (hquit : ¬ m.Quit) :
    ∃ c, Lost (m.connect o).2.connection (m.connect o).2.connections c := by
  obtain ⟨c, hheld, hreleased⟩ : ∃ c ∈ m.connection, c ∉ m.connections.released := by
    simpa [Managers.Quit, Ledger.Free, Managers.held] using hquit
  have hlt := hknown.lt_of_held c hheld
  refine ⟨c, ?_⟩
  rw [Managers.connect, if_neg hcreates.1, Managers.redisConnect, if_neg hcreates.2.1,
    if_pos hcreates.2.2]
  refine ⟨Nat.lt_succ_of_lt hlt, hreleased, fun hc => ?_⟩
  obtain rfl := Option.some.inj hc
  exact Nat.lt_irrefl _ hlt

/-- A careless step loses a connection, unless a `disconnect` is about to forget the new one. -/
theorem exists_lost {e : Event} (hknown : Known w.managers.connection w.managers.connections)
    (hcareless : ¬ Careful w e) (hquitting : w.Quitting → ∀ o, e ≠ .connect o)
    (h : system.step w e = some w') :
    ∃ c, Lost w'.managers.connection w'.managers.connections c := by
  cases e with
  | connect o =>
    obtain ⟨hcreates, hnot⟩ := Classical.not_imp.mp hcareless
    have hquit : ¬ w.managers.Quit := fun hquit =>
      hnot ⟨hquit, fun hquitting' => hquitting hquitting' o rfl⟩
    exact Option.some.inj h ▸ hknown.lost_connect hcreates hquit
  | registerWorker o =>
    obtain ⟨a, ha, hnone, hcreated⟩ : ∃ a ∈ w.managers.adapter, a.redisConnection = none ∧
        o.connectionCreated = true := by
      simpa [Careful] using hcareless
    obtain rfl := Option.some.inj h
    exact ⟨_, hknown.lost_registerWorker ha hnone hcreated⟩
  | disconnect => exact absurd trivial hcareless
  | resume call o =>
    obtain ⟨hphase, hnot⟩ := Classical.not_imp.mp hcareless
    obtain ⟨hresolves, hcreated⟩ := Classical.not_imp.mp hnot
    obtain ⟨phase, p, hphase', hp, rfl⟩ := World.resume_eq_some h
    have hconnect : phase = .reusing ∨ phase = .waitingForReady :=
      hphase.imp (fun h => Option.some.inj (hphase'.symm.trans h))
        fun h => Option.some.inj (hphase'.symm.trans h)
    obtain rfl := Phase.resume_connect hp hconnect
    exact ⟨_, hknown.lost_connected ⟨hresolves, Bool.not_eq_false _ ▸ hcreated⟩⟩

/-- **After a careless step something is open for good**, whatever is called later. -/
theorem not_allReleased_of_careless {es es' : List Event} {e : Event} {w₁ w₂ : World}
    (hrun : system.runFrom {} es = some w) (hcareless : ¬ Careful w e)
    (hquitting : w.Quitting → ∀ o, e ≠ .connect o) (hstep : system.step w e = some w₁)
    (hrun' : system.runFrom w₁ es' = some w₂) : ¬ w₂.managers.connections.AllReleased := by
  obtain ⟨c, hlost⟩ := exists_lost (known_of_run hrun) hcareless hquitting hstep
  have hlost' := lost_of_run hlost hrun'
  exact fun hall => hlost'.notMem_released (hall c hlost'.lt)

end KitiumJobQueue.Connection
