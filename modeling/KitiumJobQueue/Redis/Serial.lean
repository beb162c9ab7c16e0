import KitiumJobQueue.Foundations.Mirroring
import KitiumJobQueue.Redis.Client

/-!
# Clients whose calls do not overlap

A client may be translated as computations, too: then its state holds the Redis it talks to, with
the number of the commands sent so far, by which an oracle answers them. `Matches` says that a
method of `Redis.Client` that runs on its own and such a computation are at the same point. A
command sent by both leads from there to such a point (`mirrors_command`).
-/

namespace KitiumJobQueue.Redis.Client

open Effects

variable {ε σ V S : Type}

/-- Where the state of a client holds its Redis. -/
structure Home (V S : Type) where
  get : S → Remote (Store V)
  put : Remote (Store V) → S → S
  get_put : ∀ redis s, get (put redis s) = redis

/-- The method has the Redis of the computation, its commands will be answered as the oracle says
and at the time `now`, and `M` holds of the memory and the state. -/
structure Matches (home : Home V S) (answers : ℕ → Answer ε) (now : ℕ) (M : σ → S → Prop)
    (w : Solo ε σ (Store V) (Choice ε) (Reply (V := V))) (s : S) : Prop where
  server : w.server = (home.get s).server
  choices : ∀ i, w.choices i = ⟨answers ((home.get s).calls + i), now⟩
  memory : M w.memory s

variable {home : Home V S} {answers : ℕ → Answer ε} {now : ℕ} {M : σ → S → Prop} {scan : Scan V}

/-- From any fields and any Redis the method can be met by such choices. -/
theorem exists_matches {memory : σ} {server : Store V} {s : S}
    (hserver : server = (home.get s).server) (hM : M memory s) (now : ℕ) :
    ∃ choices, Matches home answers now M ⟨⟨memory, server⟩, choices, []⟩ s :=
  ⟨fun i => ⟨answers ((home.get s).calls + i), now⟩, hserver, fun _ => rfl, hM⟩

/-- **A command that both send.** -/
theorem mirrors_command {c : Command V} {op : Store V → Reply c × Store V}
    (hop : ∀ (answer : Answer ε) server,
      serve scan ⟨answer, now⟩ c server = (perform answer op).run server)
    (hM : ∀ memory s redis, M memory s → M memory (home.put redis s)) :
    Mirrors (serve scan) (Matches home answers now M) (Matches home answers now M)
      (ask c : Method ε σ V (Reply c)) (.within home.get home.put (call answers op)) := by
  refine .await fun w s h => ?_
  have hsend : serve scan (w.choices 0) c w.server =
      (perform (answers (home.get s).calls) op).run (home.get s).server := by
    rw [h.choices 0, h.server]
    exact hop _ _
  have hcall : (call answers op).run (home.get s) =
      ((serve scan (w.choices 0) c w.server).1,
        ⟨(serve scan (w.choices 0) c w.server).2, (home.get s).calls + 1⟩) := by
    rw [hsend]
    exact run_call_eq_perform _ op _
  rw [Async.run_within hcall]
  refine ⟨rfl, ?_, fun i => ?_, hM _ _ _ h.memory⟩
  · rw [home.get_put]
    rfl
  · rw [home.get_put]
    show w.choices (i + 1) = _
    rw [h.choices (i + 1), Nat.add_right_comm, Nat.add_assoc]

/-- A change of the fields that both make. -/
theorem mirrors_modify {M' : σ → S → Prop} {f : σ → σ} {f' : S → S}
    (hhome : ∀ s, home.get (f' s) = home.get s)
    (hM : ∀ memory s, M memory s → M' (f memory) (f' s)) :
    Mirrors (serve scan) (Matches home answers now M) (Matches home answers now M')
      (.modify f) (.modify f') :=
  .modify fun _ s h => ⟨(hhome s).symm ▸ h.server, (hhome s).symm ▸ h.choices, hM _ _ h.memory⟩

/-! ## The clock -/

/-- The same, except that nothing is said of how commands will be answered. -/
structure Stands (home : Home V S) (now : ℕ) (M : σ → S → Prop)
    (w : Solo ε σ (Store V) (Choice ε) (Reply (V := V))) (s : S) : Prop where
  server : w.server = (home.get s).server
  clock : ∀ i, (w.choices i).now = now
  memory : M w.memory s

theorem Matches.stands {w : Solo ε σ (Store V) (Choice ε) (Reply (V := V))} {s : S}
    (h : Matches home answers now M w s) : Stands home now M w s :=
  ⟨h.server, fun i => congrArg Choice.now (h.choices i), h.memory⟩

/-- A look at the clock, which a computation that is told the time does not take. -/
theorem mirrors_now_bind {α : Type}
    {T : Solo ε σ (Store V) (Choice ε) (Reply (V := V)) → S → Prop} {k : ℕ → Method ε σ V α}
    {m' : Async ε S α} (hk : Mirrors (serve scan) (Stands home now M) T (k now) m') :
    Mirrors (serve scan) (Stands home now M) T (ask .now >>= k) m' := by
  intro w s h
  rw [Coroutine.alone_bind, Async.run_bind, ask, Coroutine.run_alone_await]
  have hnow : (w.send (serve scan) .now).1 = .ok now := congrArg Except.ok (h.clock 0)
  rcases hsend : w.send (serve scan) .now with ⟨r, w'⟩
  obtain rfl : r = .ok now := (congrArg Prod.fst hsend).symm.trans hnow
  obtain rfl : (w.send (serve scan) .now).2 = w' := congrArg Prod.snd hsend
  exact hk _ s ⟨h.server, fun i => h.clock (i + 1), h.memory⟩

end KitiumJobQueue.Redis.Client
