import Mathlib.Algebra.Order.BigOperators.Group.List
import VirtualHidDevice.Server

/-!
# The pace of `create_server`

`create_server` starts the retry timer when the directories of the socket cannot be
prepared. A timer calls its function once when it is started, and only then after
each interval, and all of it happens in closures that are due immediately.

* `Server.Paced` — after a failed attempt, the next one is an interval away.
* `Server.Retrying` — the next attempt is on its way in the queue; it stays there
  until it is made, and no delayed closure runs before.
* `ServerTask.weight` — how many closures a closure leads to while the directories
  can be prepared, so that the queue runs empty then.
-/

namespace VirtualHidDevice

/-- The closures that run because of a closure, itself included, while the directories of
the socket can be prepared. -/
def ServerTask.weight : ServerTask → ℕ
  | .start | .ready _ | .closed _ | .bindFailed | .stop | .timerStop => 1
  | .createServer => 3
  | .timerStart => 4
  | .dropServer => 5

namespace Server

/-- After a failed attempt, the next one is an interval away. -/
def Paced (s : Server) : Prop :=
  s.attempts.IsChain fun a b => a.2 = false → a.1 + retryInterval ≤ b.1

/-- An attempt to create the socket server succeeds. -/
def Prepared (s : Server) : ServerLabel → Prop
  | .run answers => s.queue.head? = some .createServer → answers.prepared = true
  | _ => True

instance (s : Server) : ∀ label, Decidable (s.Prepared label)
  | .run _ => inferInstanceAs (Decidable (_ → _))
  | .accept | .peerReady _ | .peerClosed _ | .request _ _ | .bindFailed | .tick _ | .delayed
  | .managerRun _ | .peer _ _ => isTrue trivial

/-- The next attempt is on its way. -/
def Retrying (s : Server) : Prop := .timerStart ∈ s.queue ∨ .createServer ∈ s.queue

/-- What is left to run while the directories can be prepared. -/
def load (s : Server) : ℕ := (s.queue.map ServerTask.weight).sum

/-! ## One closure -/

/-- A socket server takes nothing with it but its own closures. -/
theorem mem_dropServer {s : Server} {t : ServerTask} (ht : t.ofSocketServer = false)
    (h : t ∈ s.queue) : t ∈ s.dropServer.queue := by
  rcases hu : s.server with _ | u
  · rw [dropServer, hu]
    exact h
  · rw [dropServer, hu]
    exact List.mem_filter.mpr ⟨h, by rw [ht]; rfl⟩

theorem dropServer_clock (s : Server) : s.dropServer.clock = s.clock := by
  rcases hu : s.server with _ | u <;> rw [dropServer, hu]

theorem dropServer_attempts (s : Server) : s.dropServer.attempts = s.attempts := by
  rcases hu : s.server with _ | u <;> rw [dropServer, hu]

theorem load_dropServer (s : Server) : s.dropServer.load ≤ s.load := by
  rcases hu : s.server with _ | u
  · rw [dropServer, hu]
  · rw [dropServer, hu]
    exact (List.filter_sublist.map _).sum_le_sum fun _ _ => Nat.zero_le _

/-- The closures other than `create_server` make no attempt, take no time, and leave the
closures of the retry timer in the queue. -/
theorem task_keeps (answers : ServerAnswers) (s : Server) {task : ServerTask}
    (htask : task ≠ .createServer) :
    (s.task answers task).clock = s.clock ∧ (s.task answers task).attempts = s.attempts ∧
      ∀ t, t.ofSocketServer = false → t ∈ s.queue → t ∈ (s.task answers task).queue := by
  cases task with
  | createServer => exact absurd rfl htask
  | start => exact ⟨rfl, rfl, fun _ _ h => h⟩
  | ready id => exact ⟨rfl, rfl, fun _ _ h => h⟩
  | closed id =>
    simp only [Server.task]
    split
    · exact ⟨rfl, rfl, fun _ _ h => h⟩
    · split
      · exact ⟨rfl, rfl, fun _ _ h => h⟩
      · exact ⟨rfl, rfl, fun _ _ h => h⟩
  | bindFailed =>
    simp only [Server.task, Server.bindFailed]
    split
    · exact ⟨rfl, rfl, fun _ _ h => h⟩
    · exact ⟨rfl, rfl, fun _ _ h => List.mem_append_left _ (List.mem_append_left _ h)⟩
  | stop => exact ⟨rfl, rfl, fun _ _ h => h⟩
  | dropServer =>
    exact ⟨dropServer_clock s, dropServer_attempts s,
      fun t ht h => List.mem_append_left _ (mem_dropServer ht h)⟩
  -- the function that was set just now is called, so `create_server` is queued
  | timerStart =>
    simp only [Server.task, callFunction, ne_eq, not_true_eq_false, if_false, if_true]
    exact ⟨trivial, trivial, fun _ _ h => List.mem_append_left _ h⟩
  | timerStop => exact ⟨rfl, rfl, fun _ _ h => h⟩

/-- `create_server` takes no time. -/
theorem createServer_clock (prepared : Bool) (s : Server) :
    (s.createServer prepared).clock = s.clock ∧
      (s.createServer prepared).attempts = s.attempts ++ [(s.clock, prepared)] := by
  cases prepared with
  | false => exact ⟨rfl, rfl⟩
  | true => exact ⟨dropServer_clock _, dropServer_attempts _⟩

/-- While the directories can be prepared, each closure leaves less to run. -/
theorem run_load {s t : Server} (h : s.step (.run {}) = some t) : t.load < s.load := by
  obtain ⟨task, queue, hq, rfl⟩ := run_cases h
  have hload : s.load = task.weight + load { s with queue } := by
    rw [load, hq]
    rfl
  rw [hload]
  cases task with
  | closed id =>
    simp only [Server.task]
    split
    · simp [load, ServerTask.weight]
    · split <;> simp [load, ServerTask.weight, peerClosed]
  | dropServer =>
    -- `dropServer` restarts the timer, which leads to one more attempt
    have hdrop := load_dropServer { s with queue }
    simp only [Server.task, startCreateServerRetryTimer, load, List.map_append, List.sum_append,
      ServerTask.weight] at hdrop ⊢
    simp only [List.map_cons, List.map_nil, List.sum_cons, List.sum_nil, ServerTask.weight]
    omega
  | createServer =>
    have hdrop := load_dropServer { s with
      queue := queue ++ [.timerStop]
      attempts := s.attempts ++ [(s.clock, true)] }
    simp only [Server.task, Server.createServer, if_true, load, List.map_append, List.sum_append,
      List.map_cons, List.map_nil, List.sum_cons, List.sum_nil, ServerTask.weight] at hdrop ⊢
    omega
  | timerStart =>
    simp [Server.task, load, ServerTask.weight, callFunction]
    omega
  | _ => simp [Server.task, load, ServerTask.weight, Server.bindFailed, peerConnected]

/-! ## The next attempt -/

/-- With a closure in the queue, the dispatcher can run it. -/
theorem exists_run {s : Server} (h : s.queue ≠ []) (answers : ServerAnswers) :
    ∃ t, s.step (.run answers) = some t := by
  rcases hq : s.queue with _ | ⟨task, queue⟩
  · exact absurd hq h
  · exact ⟨Server.task answers { s with queue } task, by simp only [step, hq]⟩

theorem Retrying.queue_ne_nil {s : Server} (h : s.Retrying) : s.queue ≠ [] := by
  intro hq
  rw [Retrying, hq] at h
  rcases h with h | h <;> cases h

/-- The next attempt stays on its way, whatever closure runs first, and takes no time. -/
theorem Retrying.run {s t : Server} (h : s.Retrying) {answers : ServerAnswers}
    (hhead : s.queue.head? ≠ some .createServer) (hstep : s.step (.run answers) = some t) :
    t.Retrying ∧ t.clock = s.clock ∧ t.attempts = s.attempts := by
  obtain ⟨task, queue, hq, rfl⟩ := run_cases hstep
  have hne : task ≠ .createServer := by
    rintro rfl
    exact hhead (by rw [hq]; rfl)
  obtain ⟨hclock, hattempts, hkeep⟩ := task_keeps answers { s with queue } hne
  refine ⟨?_, hclock, hattempts⟩
  rw [Retrying, hq, List.mem_cons, List.mem_cons] at h
  rcases h with (rfl | hmem) | (rfl | hmem)
  · refine Or.inr ?_
    simp [Server.task, callFunction]
  · exact Or.inl (hkeep _ rfl hmem)
  · exact absurd rfl hne
  · exact Or.inr (hkeep _ rfl hmem)

/-- An attempt that fails puts the next one on its way. -/
theorem retrying_of_failed {s t : Server} {answers : ServerAnswers}
    (hhead : s.queue.head? = some .createServer) (hfailed : answers.prepared = false)
    (hstep : s.step (.run answers) = some t) : t.Retrying := by
  obtain ⟨task, queue, hq, rfl⟩ := run_cases hstep
  rw [hq] at hhead
  obtain rfl := Option.some.inj hhead
  refine Or.inl ?_
  simp [Server.task, Server.createServer, hfailed, startCreateServerRetryTimer]

/-- What an attempt records. -/
theorem attempt_recorded {s t : Server} {answers : ServerAnswers}
    (hhead : s.queue.head? = some .createServer) (hstep : s.step (.run answers) = some t) :
    t.clock = s.clock ∧ t.attempts = s.attempts ++ [(s.clock, answers.prepared)] := by
  obtain ⟨task, queue, hq, rfl⟩ := run_cases hstep
  rw [hq] at hhead
  obtain rfl := Option.some.inj hhead
  exact createServer_clock answers.prepared { s with queue }

/-- Once it is on its way, the next attempt is made without any time passing. -/
theorem Retrying.next {s : Server} (h : s.Retrying) : ∃ n u,
    Transition.run step s (List.replicate n (.run {})) = some u ∧ u.clock = s.clock ∧
      u.attempts = s.attempts ++ [(s.clock, true)] := by
  -- the load bounds how many closures are ahead of the attempt
  induction hn : s.load using Nat.strong_induction_on generalizing s with
  | _ n ih =>
    obtain ⟨t, ht⟩ := exists_run h.queue_ne_nil {}
    by_cases hhead : s.queue.head? = some .createServer
    · obtain ⟨hclock, hattempts⟩ := attempt_recorded hhead ht
      refine ⟨1, t, ?_, hclock, hattempts⟩
      simp [Transition.run_cons, ht]
    · obtain ⟨hretry, hclock, hattempts⟩ := h.run hhead ht
      obtain ⟨m, u, hu, hclock', hattempts'⟩ := ih t.load (hn ▸ run_load ht) hretry rfl
      refine ⟨m + 1, u, ?_, hclock'.trans hclock, ?_⟩
      · rw [List.replicate_succ, Transition.run_cons, ht]
        exact hu
      · rw [hattempts', hattempts, hclock]

/-- As long as the directories cannot be prepared, the queue does not run empty, and no time
needs to pass. -/
theorem Retrying.starves {s : Server} (h : s.Retrying) (n : ℕ) : ∃ u,
    Transition.run step s (List.replicate n (.run { prepared := false })) = some u ∧
      u.Retrying ∧ u.clock = s.clock := by
  induction n generalizing s with
  | zero => exact ⟨s, rfl, h, rfl⟩
  | succ n ih =>
    obtain ⟨t, ht⟩ := exists_run h.queue_ne_nil { prepared := false }
    obtain ⟨hretry, hclock⟩ : t.Retrying ∧ t.clock = s.clock := by
      by_cases hhead : s.queue.head? = some .createServer
      · exact ⟨retrying_of_failed hhead rfl ht, (attempt_recorded hhead ht).1⟩
      · obtain ⟨hretry, hclock, -⟩ := h.run hhead ht
        exact ⟨hretry, hclock⟩
    obtain ⟨u, hu, hretry', hclock'⟩ := ih hretry
    refine ⟨u, ?_, hretry', hclock'.trans hclock⟩
    rw [List.replicate_succ, Transition.run_cons, ht]
    exact hu

/-- While the directories can be prepared, the queue runs empty. -/
theorem exists_idle (s : Server) : ∃ n t,
    Transition.run step s (List.replicate n (.run {})) = some t ∧ t.queue = [] := by
  induction hn : s.load using Nat.strong_induction_on generalizing s with
  | _ n ih =>
    by_cases hq : s.queue = []
    · exact ⟨0, s, rfl, hq⟩
    · obtain ⟨t, ht⟩ := exists_run hq {}
      obtain ⟨m, u, hu, hempty⟩ := ih t.load (hn ▸ run_load ht) t rfl
      refine ⟨m + 1, u, ?_, hempty⟩
      rw [List.replicate_succ, Transition.run_cons, ht]
      exact hu

/-! ## Whole runs -/

theorem Retrying.append {s t : Server} (h : s.Retrying) {tasks : List ServerTask}
    (hq : t.queue = s.queue ++ tasks) : t.Retrying := by
  rw [Retrying, hq]
  exact h.imp (List.mem_append_left _) (List.mem_append_left _)

/-- Steps other than running a closure make no attempt, and do not take the next one back. -/
theorem step_keeps {s t : Server} {label : ServerLabel} (hlabel : ∀ answers, label ≠ .run answers)
    (hstep : s.step label = some t) : t.attempts = s.attempts ∧ (s.Retrying → t.Retrying) := by
  cases step_cases hstep with
  | run answers task queue hq => exact absurd rfl (hlabel answers)
  | peerReady id u hu hid => exact ⟨rfl, fun h => h.append rfl⟩
  | peerClosed id u hu hid => exact ⟨rfl, fun h => h.append rfl⟩
  | bindFailed u hu hrunning => exact ⟨rfl, fun h => h.append rfl⟩
  | delayed when functionId rest hq hm hd hwhen =>
    -- a delayed closure runs only when the queue is empty
    refine ⟨?_, fun h => absurd hq h.queue_ne_nil⟩
    simp only [callFunction]
    split
    · rfl
    · split <;> rfl
  | _ => exact ⟨rfl, id⟩

/-- While the last attempt is one that failed, the next one is on its way. -/
def Failing (s : Server) : Prop := ∀ time, s.attempts.getLast? = some (time, false) → s.Retrying

/-- What one step does to the attempts. -/
theorem step_attempts {s t : Server} {label : ServerLabel} (hstep : s.step label = some t) :
    (t.attempts = s.attempts ∧ (s.Retrying → t.Retrying)) ∨
      ∃ answers, label = .run answers ∧ s.queue.head? = some .createServer ∧
        t.attempts = s.attempts ++ [(s.clock, answers.prepared)] ∧
        (answers.prepared = false → t.Retrying) := by
  cases label with
  | run answers =>
    by_cases hhead : s.queue.head? = some .createServer
    · exact Or.inr ⟨answers, rfl, hhead, (attempt_recorded hhead hstep).2,
        fun hfailed => retrying_of_failed hhead hfailed hstep⟩
    · refine Or.inl ⟨?_, fun h => (h.run hhead hstep).1⟩
      obtain ⟨task, queue, hq, rfl⟩ := run_cases hstep
      refine (task_keeps answers { s with queue } ?_).2.1
      rintro rfl
      exact hhead (by rw [hq]; rfl)
  | _ =>
    refine Or.inl (step_keeps ?_ hstep)
    exact fun _ heq => by cases heq

theorem step_failing {s t : Server} {label : ServerLabel} (h : s.Failing)
    (hstep : s.step label = some t) : t.Failing := by
  intro time hlast
  rcases step_attempts hstep with ⟨hsame, hkeep⟩ | ⟨answers, -, -, hnew, hretry⟩
  · exact hkeep (h time (hsame ▸ hlast))
  · rw [hnew, List.getLast?_concat] at hlast
    exact hretry (Prod.mk.inj (Option.some.inj hlast)).2

theorem init_failing (answers : ServerAnswers) : (init answers).Failing := by
  intro time hlast
  have hattempts := (createServer_clock answers.prepared {}).2
  rw [init, hattempts] at hlast
  have hfailed : answers.prepared = false := (Prod.mk.inj (Option.some.inj hlast)).2
  refine Or.inl ?_
  simp [init, Server.createServer, hfailed, startCreateServerRetryTimer]

/-- Without failed attempts there is nothing to wait for. -/
theorem paced_of_prepared {s : Server} (h : ∀ a ∈ s.attempts, a.2 = true) : s.Paced := by
  refine List.Pairwise.isChain (List.pairwise_of_forall_mem_list fun a ha b _ hfailed => ?_)
  rw [h a ha] at hfailed
  cases hfailed

/-- An attempt right after one that failed breaks the pace. -/
theorem not_paced {s u : Server} {time : ℕ} (hlast : s.attempts.getLast? = some (time, false))
    (hearly : s.clock < time + retryInterval)
    (hnext : u.attempts = s.attempts ++ [(s.clock, true)]) : ¬ u.Paced := by
  intro hpaced
  rw [Paced, hnext] at hpaced
  obtain ⟨before, hbefore⟩ := List.getLast?_eq_some_iff.mp hlast
  rw [hbefore, List.append_assoc, List.isChain_append] at hpaced
  have hpair := hpaced.2.1
  rw [List.cons_append, List.nil_append, List.isChain_cons_cons] at hpair
  exact absurd (hpair.1 rfl) (Nat.not_le.mpr hearly)

end Server

/-- The pace of `create_server`, whose attempts are the calls that prepare the directories; what
the listener of `bind_failed` fails at is none. After an attempt that failed, the next one is made
without any time passing, and as long as they fail the queue does not run empty. If all attempts
succeed there is nothing to wait for, and the queue can run empty, so that delayed closures have
their turn. -/
theorem create_server_pace (answers : ServerAnswers) (labels : List ServerLabel) (s : Server)
    (h : Transition.run Server.step (.init answers) labels = some s) :
    (∀ time, s.attempts.getLast? = some (time, false) →
      (s.clock < time + Server.retryInterval → ∃ n u,
        Transition.run Server.step s (List.replicate n (.run {})) = some u ∧ ¬ u.Paced) ∧
      ∀ n, ∃ u,
        Transition.run Server.step s (List.replicate n (.run { prepared := false })) = some u ∧
          u.queue ≠ [] ∧ u.clock = s.clock) ∧
    (answers.prepared = true →
      Transition.Meets Server.step Server.Prepared (.init answers) labels →
      s.Paced ∧ ∃ n t, Transition.run Server.step s (List.replicate n (.run {})) = some t ∧
        t.queue = []) := by
  have hfailing : s.Failing := Transition.run_invariant (Server.init_failing answers)
    (fun _ _ _ => Server.step_failing) h
  refine ⟨fun time hlast => ⟨fun hearly => ?_, fun n => ?_⟩,
    fun hprepared hmeets => ⟨?_, s.exists_idle⟩⟩
  · obtain ⟨n, u, hu, -, hnext⟩ := (hfailing time hlast).next
    exact ⟨n, u, hu, Server.not_paced hlast hearly hnext⟩
  · obtain ⟨u, hu, hretry, hclock⟩ := (hfailing time hlast).starves n
    exact ⟨u, hu, hretry.queue_ne_nil, hclock⟩
  · have hall : ∀ a ∈ s.attempts, a.2 = true := by
      refine Transition.run_invariant_of_meets
        (I := fun s : Server => ∀ a ∈ s.attempts, a.2 = true) ?_ ?_ hmeets h
      · intro a ha
        rw [Server.init, (Server.createServer_clock answers.prepared {}).2] at ha
        obtain rfl := List.mem_singleton.mp ha
        exact hprepared
      · intro s label t hI hcond hstep a ha
        rcases Server.step_attempts hstep with ⟨hsame, -⟩ | ⟨answers, rfl, hhead, hnew, -⟩
        · exact hI a (hsame ▸ ha)
        · rw [hnew, List.mem_append, List.mem_singleton] at ha
          rcases ha with ha | rfl
          · exact hI a ha
          · exact hcond hhead
    exact Server.paced_of_prepared hall

/-- The directories cannot be prepared: two attempts follow each other at once. -/
theorem create_server_retried_at_once : ∃ s,
    Transition.run Server.step (.init { prepared := false })
      (List.replicate 3 (.run { prepared := false })) = some s ∧
    s.attempts = [(0, false), (0, false)] ∧ ¬ s.Paced ∧ s.queue ≠ [] := by
  have hrun : ∃ s, Transition.run Server.step (.init { prepared := false })
      (List.replicate 3 (.run { prepared := false })) = some s ∧
      s.attempts = [(0, false), (0, false)] ∧ s.queue ≠ [] := by
    decide +kernel
  obtain ⟨s, hs, hattempts, hqueue⟩ := hrun
  refine ⟨s, hs, hattempts, fun hpaced => ?_, hqueue⟩
  rw [Server.Paced, hattempts, List.isChain_cons_cons] at hpaced
  exact absurd (hpaced.1 rfl) (by decide)

/-- The socket server is dropped, and created again at the next attempt. -/
def recreatedServer : List ServerLabel :=
  [.run {}, .run {}, .tick 5] ++ droppedServer ++ [.run {}, .run {}]

/-- A run to which the theorem applies: both attempts succeed. -/
theorem recreated_server_paced : ∃ s,
    Transition.run Server.step (.init {}) recreatedServer = some s ∧
    s.attempts = [(0, true), (5, true)] ∧ s.Paced := by
  obtain ⟨s, hs, hattempts⟩ : ∃ s,
      Transition.run Server.step (.init {}) recreatedServer = some s ∧
      s.attempts = [(0, true), (5, true)] := by
    decide +kernel
  have hmeets : Transition.Meets Server.step Server.Prepared (.init {}) recreatedServer := by
    decide +kernel
  exact ⟨s, hs, hattempts, ((create_server_pace {} recreatedServer s hs).2 rfl hmeets).1⟩

end VirtualHidDevice
