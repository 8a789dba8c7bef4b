import GuestBoundary.Interface.Locking
import GuestBoundary.Proofs.Interface.Outcomes
import Mathlib.Data.List.Induction

/-!
# Monitors among threads

Threads take turns at a monitor in any order.  One that asks to enter while another one owns the
monitor waits, and each of its further turns is a new attempt (`Contention.turn`).  Whatever the
turns, the owner is the one thread that has entered more often than it has exited, and the monitor
counts the difference (`Contention.entries_run`).
-/

namespace GuestBoundary

namespace Monitor

variable {m m' : Monitor} {t u : ThreadId}

/-! ## Owner and count -/

/-- Nothing is counted exactly if nobody owns the monitor. -/
def Sound (m : Monitor) : Prop := m.count = 0 ↔ m.owner? = none

theorem sound_free : free.Sound := iff_of_true rfl rfl

/-- Entering succeeds for the owner, and for everybody if there is none. -/
theorem enter?_cases (m : Monitor) (t : ThreadId) :
    (m.enter? t = none ∧ ∃ u, u ≠ t ∧ m.owner? = some u) ∨
    (m.owner? = none ∧ m.enter? t = some ⟨some t, 1⟩) ∨
    (m.owner? = some t ∧ m.enter? t = some ⟨some t, m.count + 1⟩) := by
  obtain ⟨owner, count⟩ := m
  cases owner with
  | none => exact .inr (.inl ⟨rfl, rfl⟩)
  | some u =>
    by_cases hu : u = t
    · subst hu
      exact .inr (.inr ⟨rfl, if_pos rfl⟩)
    · exact .inl ⟨if_neg hu, u, hu, rfl⟩

/-- Exiting succeeds for the owner, who owns the monitor until the last exit. -/
theorem exit?_cases (m : Monitor) (t : ThreadId) :
    (m.exit? t = none ∧ m.owner? ≠ some t) ∨
    (m.owner? = some t ∧
      m.exit? t = some ⟨if m.count - 1 = 0 then none else some t, m.count - 1⟩) := by
  by_cases ht : m.owner? = some t
  · refine .inr ⟨ht, ?_⟩
    rw [exit?, if_pos ht, ht]
  · exact .inl ⟨if_neg ht, ht⟩

theorem sound_of_enter? (h : m.enter? t = some m') : m'.Sound := by
  obtain ⟨hnone, -⟩ | ⟨-, hsome⟩ | ⟨-, hsome⟩ := m.enter?_cases t
  · rw [h] at hnone
    cases hnone
  all_goals
    rw [h] at hsome
    cases hsome
    simp [Sound]

theorem Sound.tryEnter (h : m.Sound) (t : ThreadId) : (m.tryEnter t).2.Sound := by
  unfold Monitor.tryEnter
  cases he : m.enter? t with
  | some m' => exact sound_of_enter? he
  | none => exact h

theorem sound_of_exit? (h : m.exit? t = some m') : m'.Sound := by
  obtain ⟨hnone, -⟩ | ⟨-, hsome⟩ := m.exit?_cases t
  · rw [h] at hnone
    cases hnone
  · rw [h] at hsome
    cases hsome
    simp [Sound]

/-! ## What is counted for a thread -/

/-- How often a thread has entered and not exited. -/
def countOf (m : Monitor) (t : ThreadId) : Nat := if m.owner? = some t then m.count else 0

theorem Sound.countOf_pos_iff (h : m.Sound) : 0 < m.countOf t ↔ m.owner? = some t := by
  unfold countOf
  split
  next ht => simp [ht, Nat.pos_iff_ne_zero, show m.count = 0 ↔ m.owner? = none from h]
  next ht => simp [ht]

theorem countOf_enter? (h : m.enter? t = some m') (u : ThreadId) :
    m'.countOf u = m.countOf u + if t = u then 1 else 0 := by
  obtain ⟨hnone, -⟩ | ⟨howner, hsome⟩ | ⟨howner, hsome⟩ := m.enter?_cases t
  · rw [h] at hnone
    cases hnone
  all_goals
    rw [h] at hsome
    cases hsome
    by_cases hu : t = u
    · simp [countOf, howner, hu]
    · simp [countOf, howner, hu]

theorem Sound.countOf_exit? (hs : m.Sound) (h : m.exit? t = some m') (u : ThreadId) :
    m'.countOf u + (if t = u then 1 else 0) = m.countOf u := by
  obtain ⟨hnone, -⟩ | ⟨howner, hsome⟩ := m.exit?_cases t
  · rw [h] at hnone
    cases hnone
  rw [h] at hsome
  cases hsome
  -- the owner has entered at least once
  obtain ⟨again, hcount⟩ := Nat.exists_eq_succ_of_ne_zero fun hzero => by
    rw [hs.1 hzero] at howner
    cases howner
  by_cases hu : t = u
  · subst hu
    cases again with
    | zero => simp [countOf, howner, hcount]
    | succ again => simp [countOf, howner, hcount]
  · by_cases hlast : again = 0 <;> simp [countOf, howner, hcount, hlast, hu]

end Monitor

/-! ## Turns -/

/-- What a thread asks of a monitor. -/
inductive MonitorCall where
  | enter
  | tryEnter
  | exit

/-- What becomes of that. -/
inductive MonitorEvent where
  | entered
  /-- The thread waits. -/
  | waits
  | tried (success : Bool)
  | exited
  | notOwner
  deriving DecidableEq

/-- What becomes of a call, and the monitor after it. -/
def Monitor.answer (m : Monitor) (t : ThreadId) : MonitorCall → MonitorEvent × Monitor
  | .enter =>
    match m.enter? t with
    | some m' => (.entered, m')
    | none => (.waits, m)
  | .tryEnter => (.tried (m.tryEnter t).1, (m.tryEnter t).2)
  | .exit =>
    match m.exit? t with
    | some m' => (.exited, m')
    | none => (.notOwner, m)

/-- A monitor and the threads around it. -/
structure Contention where
  monitor : Monitor
  /-- The threads that asked to enter and have not entered yet. -/
  waiting : List ThreadId
  /-- What has become of each turn, oldest first. -/
  log : List (ThreadId × MonitorEvent)

namespace Contention

variable {s : Contention} {t u : ThreadId}

/-- A turn of a thread.  One that waits tries to enter again, whatever it would do afterwards. -/
def turn (s : Contention) (t : ThreadId) (call : MonitorCall) : Contention :=
  let (event, monitor) := s.monitor.answer t (if t ∈ s.waiting then .enter else call)
  { monitor
    waiting := if event = .waits then s.waiting.insert t else s.waiting.filter (· ≠ t)
    log := s.log ++ [(t, event)] }

/-- Turns at a monitor that is free and for which nobody waits. -/
def run (turns : List (ThreadId × MonitorCall)) : Contention :=
  turns.foldl (fun s turn => s.turn turn.1 turn.2) ⟨.free, [], []⟩

/-- How often a thread has entered. -/
def entries (s : Contention) (t : ThreadId) : Nat :=
  s.log.count (t, .entered) + s.log.count (t, .tried true)

/-- How often a thread has exited. -/
def exits (s : Contention) (t : ThreadId) : Nat := s.log.count (t, .exited)

/-! ### One turn -/

/-- Whatever is asked of a monitor that counts nothing exactly while nobody owns it, it stays like
that. -/
theorem sound_answer {m : Monitor} (hs : m.Sound) (t : ThreadId) (call : MonitorCall) :
    (m.answer t call).2.Sound := by
  cases call with
  | enter =>
    unfold Monitor.answer
    cases h : m.enter? t with
    | some m' => exact Monitor.sound_of_enter? h
    | none => exact hs
  | tryEnter => exact hs.tryEnter t
  | exit =>
    unfold Monitor.answer
    cases h : m.exit? t with
    | some m' => exact Monitor.sound_of_exit? h
    | none => exact hs

/-- A turn is written down, and the monitor counts it for the thread that takes it. -/
theorem countOf_answer {m : Monitor} (hs : m.Sound) (t u : ThreadId) (call : MonitorCall) :
    (m.answer t call).2.countOf u + [(t, (m.answer t call).1)].count (u, .exited) =
      m.countOf u + ([(t, (m.answer t call).1)].count (u, .entered) +
        [(t, (m.answer t call).1)].count (u, .tried true)) := by
  cases call with
  | enter =>
    unfold Monitor.answer
    cases h : m.enter? t with
    | some m' => simp [Monitor.countOf_enter? h, List.count_singleton]
    | none => simp
  | tryEnter =>
    unfold Monitor.answer Monitor.tryEnter
    cases h : m.enter? t with
    | some m' => simp [Monitor.countOf_enter? h, List.count_singleton]
    | none => simp
  | exit =>
    unfold Monitor.answer
    cases h : m.exit? t with
    | some m' => simp [← hs.countOf_exit? h, List.count_singleton]
    | none => simp

/-- What a turn adds to what a thread has entered and exited, the monitor counts. -/
theorem balanced_turn (s : Contention) (hs : s.monitor.Sound) (t u : ThreadId)
    (call : MonitorCall) (h : s.entries u = s.exits u + s.monitor.countOf u) :
    (s.turn t call).entries u = (s.turn t call).exits u + (s.turn t call).monitor.countOf u := by
  have hone := countOf_answer hs t u (if t ∈ s.waiting then .enter else call)
  unfold entries exits turn at *
  simp only [List.count_append]
  omega

theorem run_concat (turns : List (ThreadId × MonitorCall)) (t : ThreadId) (call : MonitorCall) :
    run (turns ++ [(t, call)]) = (run turns).turn t call := by
  rw [run, List.foldl_append]
  rfl

/-- The monitor counts nothing exactly while nobody owns it. -/
theorem sound_run (turns : List (ThreadId × MonitorCall)) : (run turns).monitor.Sound := by
  induction turns using List.reverseRecOn with
  | nil => exact Monitor.sound_free
  | append_singleton turns turn ih =>
    rw [run_concat]
    exact sound_answer ih ..

/-- After whatever turns, the monitor counts for each thread what it has entered and not exited. -/
theorem entries_run (turns : List (ThreadId × MonitorCall)) (t : ThreadId) :
    (run turns).entries t = (run turns).exits t + (run turns).monitor.countOf t := by
  induction turns using List.reverseRecOn with
  | nil => rfl
  | append_singleton turns turn ih =>
    obtain ⟨u, call⟩ := turn
    rw [run_concat]
    exact balanced_turn _ (sound_run turns) u t call ih

/-- The owner is the thread that has entered more often than it has exited. -/
theorem owner?_run_iff (turns : List (ThreadId × MonitorCall)) (t : ThreadId) :
    (run turns).monitor.owner? = some t ↔ (run turns).exits t < (run turns).entries t := by
  have hbalance := entries_run turns t
  rw [← (sound_run turns).countOf_pos_iff]
  omega

/-- A thread that waits gets the monitor once the owner has exited as often as it has entered. -/
example : (run [(⟨0⟩, .enter), (⟨0⟩, .enter), (⟨1⟩, .enter), (⟨0⟩, .exit), (⟨1⟩, .exit), (⟨0⟩, .exit),
      (⟨1⟩, .exit), (⟨0⟩, .tryEnter)]).log =
    [(⟨0⟩, .entered), (⟨0⟩, .entered), (⟨1⟩, .waits), (⟨0⟩, .exited), (⟨1⟩, .waits), (⟨0⟩, .exited),
      (⟨1⟩, .entered), (⟨0⟩, .tried false)] := by decide

/-! ### What becomes of a call -/

/-- An enter is done if and only if the monitor is free or the thread owns it; otherwise the thread
waits and changes nothing. -/
theorem answer_enter (m : Monitor) (t : ThreadId) :
    (m.owner? = none ∨ m.owner? = some t) ∧ (m.answer t .enter).1 = .entered ∧
      (m.answer t .enter).2.owner? = some t ∨
    (∃ u, u ≠ t ∧ m.owner? = some u) ∧ m.answer t .enter = (.waits, m) := by
  unfold Monitor.answer
  obtain ⟨hnone, hother⟩ | ⟨howner, hsome⟩ | ⟨howner, hsome⟩ := m.enter?_cases t
  · exact .inr ⟨hother, by rw [hnone]⟩
  · exact .inl ⟨.inl howner, by rw [hsome], by rw [hsome]⟩
  · exact .inl ⟨.inr howner, by rw [hsome], by rw [hsome]⟩

/-- A try fails if and only if another thread owns the monitor, and then changes nothing. -/
theorem answer_tryEnter (m : Monitor) (t : ThreadId) :
    (m.owner? = none ∨ m.owner? = some t) ∧ (m.answer t .tryEnter).1 = .tried true ∧
      (m.answer t .tryEnter).2.owner? = some t ∨
    (∃ u, u ≠ t ∧ m.owner? = some u) ∧ m.answer t .tryEnter = (.tried false, m) := by
  unfold Monitor.answer Monitor.tryEnter
  obtain ⟨hnone, hother⟩ | ⟨howner, hsome⟩ | ⟨howner, hsome⟩ := m.enter?_cases t
  · exact .inr ⟨hother, by rw [hnone]⟩
  · exact .inl ⟨.inl howner, by rw [hsome], by rw [hsome]⟩
  · exact .inl ⟨.inr howner, by rw [hsome], by rw [hsome]⟩

/-- An exit is refused if and only if the thread is not the owner, and then changes nothing. -/
theorem answer_exit (m : Monitor) (t : ThreadId) :
    m.owner? = some t ∧ (m.answer t .exit).1 = .exited ∨
    m.owner? ≠ some t ∧ m.answer t .exit = (.notOwner, m) := by
  unfold Monitor.answer
  obtain ⟨hnone, hother⟩ | ⟨howner, hsome⟩ := m.exit?_cases t
  · exact .inr ⟨hother, by rw [hnone]⟩
  · exact .inl ⟨howner, by rw [hsome]⟩

/-- A thread that does not wait and exits without owning the monitor changes nothing. -/
theorem turn_exit_notOwner (hwaits : t ∉ s.waiting) (howner : s.monitor.owner? ≠ some t) :
    s.turn t .exit = { s with log := s.log ++ [(t, .notOwner)] } := by
  obtain ⟨hown, -⟩ | ⟨-, hanswer⟩ := answer_exit s.monitor t
  · exact absurd hown howner
  have hothers : s.waiting.filter (· ≠ t) = s.waiting :=
    List.filter_eq_self.2 fun u hu => decide_eq_true fun h => hwaits (h ▸ hu)
  simp only [turn, if_neg hwaits, hanswer, hothers, if_neg (nofun : MonitorEvent.notOwner ≠ .waits)]

end Contention

/-! ## The monitors of objects -/

namespace Interface

variable {H : Type} {w : World H} {h : Handle} {o : ObjectRef}

/-- Entering the monitor of an object is a turn of the running thread, which nobody ends if it has
to wait. -/
theorem monitorEnter_eq (ho : w.resolve h = some o) :
    (monitorEnter h : Entry H Unit) w =
      match (w.object o).monitor.answer w.thread.id .enter with
      | (.entered, m) => .ok () (w.setObject o { w.object o with monitor := m })
      | _ => .halt (.deadlock (.monitor o)) w := by
  rw [monitorEnter, Action.bind_ok (Entry.require_some ho), Action.bind_ok Entry.world_eq,
    Monitor.answer]
  cases (w.object o).monitor.enter? w.thread.id <;> rfl

/-- Exiting the monitor of an object is a turn of the running thread, which faults if it is not the
owner. -/
theorem monitorExit_eq (ho : w.resolve h = some o) :
    (monitorExit h : Entry H Unit) w =
      match (w.object o).monitor.answer w.thread.id .exit with
      | (.exited, m) => .ok () (w.setObject o { w.object o with monitor := m })
      | _ => .error (.fault ⟨.illegalMonitorState,
          "current thread does not own the monitor of " ++ w.dottedName o⟩) w := by
  have hmessage : "current thread does not own the monitor of " ++ w.dottedName o =
      Monitor.notOwnerMessage ++ " of " ++ w.dottedName o := by
    have hjoined : Monitor.notOwnerMessage ++ " of " =
        "current thread does not own the monitor of " := by decide
    rw [hjoined]
  rw [monitorExit, Action.bind_ok (Entry.require_some ho), Action.bind_ok Entry.world_eq,
    Monitor.answer, hmessage]
  cases (w.object o).monitor.exit? w.thread.id <;> rfl

end Interface

/-! ## Exclusion and balance -/

/-- Monitors exclude and balance.  Whatever turns threads have taken, the monitor has at most one
owner, which is the one thread that has entered more often than it has exited; the monitor counts
how often, and counts nothing exactly if there is no owner, which one turn never changes.  The next
enter is done if and only if the monitor is free or the thread owns it, the next try fails if and
only if another thread owns it, the next exit is done if and only if the thread owns it, and an exit
that is not done changes nothing.  Native code takes such turns at the monitors of objects. -/
theorem monitors_exclude_and_balance :
    (∀ turns : List (ThreadId × MonitorCall),
      let s := Contention.run turns
      (∀ t u, s.monitor.isHeldBy t = true → s.monitor.isHeldBy u = true → t = u) ∧
      (∀ t, s.monitor.isHeldBy t = true ↔ s.exits t < s.entries t) ∧
      (∀ t, s.entries t = s.exits t + if s.monitor.isHeldBy t then s.monitor.count else 0) ∧
      (s.monitor.count = 0 ↔ s.monitor.owner? = none) ∧
      (∀ t, (s.monitor.answer t .enter).1 = .entered ↔
        s.monitor.owner? = none ∨ s.monitor.owner? = some t) ∧
      (∀ t, (s.monitor.answer t .tryEnter).1 = .tried false ↔
        ∃ u, u ≠ t ∧ s.monitor.owner? = some u) ∧
      (∀ t, (s.monitor.answer t .exit).1 = .exited ↔ s.monitor.owner? = some t) ∧
      (∀ t, s.monitor.owner? ≠ some t → s.monitor.answer t .exit = (.notOwner, s.monitor)) ∧
      ∀ t, t ∉ s.waiting → s.monitor.owner? ≠ some t →
        s.turn t .exit = { s with log := s.log ++ [(t, .notOwner)] }) ∧
    (∀ m : Monitor, (m.count = 0 ↔ m.owner? = none) → ∀ t call,
      ((m.answer t call).2.count = 0 ↔ (m.answer t call).2.owner? = none)) ∧
    ∀ (H : Type) (w : World H) (h : Handle) (o : ObjectRef), w.resolve h = some o →
      (Interface.monitorEnter h : Entry H Unit) w =
        (match (w.object o).monitor.answer w.thread.id .enter with
        | (.entered, m) => .ok () (w.setObject o { w.object o with monitor := m })
        | _ => .halt (.deadlock (.monitor o)) w) ∧
      (Interface.monitorExit h : Entry H Unit) w =
        (match (w.object o).monitor.answer w.thread.id .exit with
        | (.exited, m) => .ok () (w.setObject o { w.object o with monitor := m })
        | _ => .error (.fault ⟨.illegalMonitorState,
            "current thread does not own the monitor of " ++ w.dottedName o⟩) w) := by
  refine ⟨fun turns => ?_, fun _ hs => Contention.sound_answer hs, fun H w h o ho =>
    ⟨Interface.monitorEnter_eq ho, Interface.monitorExit_eq ho⟩⟩
  have hheld : ∀ t, (Contention.run turns).monitor.isHeldBy t = true ↔
      (Contention.run turns).monitor.owner? = some t := fun t => beq_iff_eq
  refine ⟨fun t u ht hu => ?_, fun t => ?_, fun t => ?_, Contention.sound_run turns, fun t => ?_,
    fun t => ?_, fun t => ?_, fun t howner => ?_, fun t => Contention.turn_exit_notOwner⟩
  · rw [hheld] at ht hu
    exact Option.some.inj (ht.symm.trans hu)
  · rw [hheld]
    exact Contention.owner?_run_iff turns t
  · simp only [hheld]
    exact Contention.entries_run turns t
  · obtain ⟨howner, hdone, -⟩ | ⟨⟨u, hne, hu⟩, hwaits⟩ :=
      Contention.answer_enter (Contention.run turns).monitor t
    · simp [howner, hdone]
    · simp [hu, hwaits, hne]
  · obtain ⟨howner, hdone, -⟩ | ⟨hother, hfails⟩ :=
      Contention.answer_tryEnter (Contention.run turns).monitor t
    · rcases howner with howner | howner <;> simp [howner, hdone]
    · simp only [hother, hfails]
  · obtain ⟨howner, hdone⟩ | ⟨hother, hrefused⟩ :=
      Contention.answer_exit (Contention.run turns).monitor t
    · exact iff_of_true hdone howner
    · exact iff_of_false (by rw [hrefused]; nofun) hother
  · obtain ⟨hown, -⟩ | ⟨-, hrefused⟩ := Contention.answer_exit (Contention.run turns).monitor t
    · exact absurd hown howner
    · exact hrefused

end GuestBoundary
