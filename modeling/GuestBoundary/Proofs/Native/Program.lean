import GuestBoundary.Guest.Invocation
import GuestBoundary.Proofs.Effects.Call

/-!
# Native functions as programs

What a native function does can be any `Program`: it calls functions of the interface in any
environment and goes on according to what they answer, it does other things in between that do not
touch the references of its thread, and in the end it answers a word.  Programs leave a record of
the frames that they open and close and of the references that they delete; nothing that runs looks
at it.
-/

namespace GuestBoundary.Native

open Interface

variable {H ε : Type}

/-! ## What is recorded -/

/-- What native code does to the references of its thread. -/
inductive Event where
  /-- A native function starts, in a frame of its own. -/
  | entered
  /-- The function returns, and its frame is closed. -/
  | left
  /-- A frame is opened. -/
  | pushed
  /-- The innermost frame is closed. -/
  | popped
  /-- A local reference is deleted. -/
  | deleted (h : Handle)
  deriving DecidableEq

namespace Event

/-- What a call of the interface does to the references of its thread. -/
def ofCall (f : Function) (args : List Argument) (answer : Answer) : List Event :=
  match f, args with
  | .pushLocalFrame, _ => if answer.returned.word = 0 then [pushed] else []
  | .popLocalFrame, _ => [popped]
  | .deleteLocalRef, [.handle h] => [deleted h]
  | _, _ => []

/-- By how much an event changes the number of frames. -/
def change : Event → Int
  | entered | pushed => 1
  | left | popped => -1
  | deleted _ => 0

/-- By how much events change the number of frames. -/
def net : List Event → Int
  | [] => 0
  | e :: es => e.change + net es

/-- By how much the number of frames changes at most, downwards, on the way. -/
def low : List Event → Int
  | [] => 0
  | e :: es => min 0 (e.change + low es)

/-- The events close no frame that was open before them, and every frame that they open. -/
def Balanced (es : List Event) : Prop := 0 ≤ low es ∧ net es = 0

instance (es : List Event) : Decidable (Balanced es) := inferInstanceAs (Decidable (_ ∧ _))

theorem net_append (es es' : List Event) : net (es ++ es') = net es + net es' := by
  induction es with
  | nil => exact (Int.zero_add _).symm
  | cons e es ih =>
    rw [List.cons_append, net, net, ih, Int.add_assoc]

theorem low_le_zero (es : List Event) : low es ≤ 0 := by
  cases es with
  | nil => exact Int.le_refl 0
  | cons e es => exact Int.min_le_left _ _

theorem low_append (es es' : List Event) : low (es ++ es') = min (low es) (net es + low es') := by
  induction es with
  | nil =>
    have := low_le_zero es'
    simp only [List.nil_append, low, net]
    omega
  | cons e es ih =>
    simp only [List.cons_append, low, ih, net]
    omega

theorem low_le_net (es : List Event) : low es ≤ net es := by
  have := low_append es []
  rw [List.append_nil, low] at this
  omega

/-- The lowest change is what no part of the events from their start on goes below. -/
theorem low_iff {es : List Event} {b : Int} (hb : b ≤ 0) :
    b ≤ low es ↔ ∀ first rest, es = first ++ rest → b ≤ net first := by
  constructor
  · rintro h first rest rfl
    have := low_append first rest
    have := low_le_net first
    omega
  · intro h
    induction es generalizing b with
    | nil => exact hb
    | cons e es ih =>
      have hone := h [e] es rfl
      rw [net] at hone
      have hnil : net [] = 0 := rfl
      have hes : b - e.change ≤ low es := by
        refine ih (by omega) fun first rest he => ?_
        have := h (e :: first) rest (by rw [he, List.cons_append])
        rw [net] at this
        omega
      rw [low]
      omega

theorem balanced_iff {es : List Event} :
    Balanced es ↔ (∀ first rest, es = first ++ rest → 0 ≤ net first) ∧ net es = 0 := by
  rw [Balanced, low_iff (Int.le_refl 0)]

theorem Balanced.nil : Balanced [] := by decide

end Event

/-! ## Programs -/

/-- What the embedding program has, with the record. -/
structure Recorded (H : Type) where
  own : H
  /-- What native code did, oldest first. -/
  trace : List Event

/-- A change of the state that leaves the running thread and the record alone. -/
structure Aside (H : Type) where
  act : World (Recorded H) → World (Recorded H)
  thread : ∀ w, (act w).thread = w.thread
  trace : ∀ w, (act w).host.trace = w.host.trace

/-- What a native function does. -/
inductive Program (H : Type) where
  /-- Answers a word. -/
  | done (word : Slot)
  /-- Calls a function of the interface. -/
  | call (env : Option Env) (f : Function) (args : List Argument) (shaped : Shaped f args)
      (next : Answer → Program H)
  /-- Calls the stub of a name that no function has. -/
  | stub (env : Option Env) (name : String) (next : Answer → Program H)
  /-- Does something else, and looks at the state. -/
  | aside (a : Aside H) (next : World (Recorded H) → Program H)

/-- Adds to the record. -/
def record (es : List Event) : Action (Recorded H) ε Unit := Action.update fun w =>
  { w with host := { w.host with trace := w.host.trace ++ es } }

namespace Program

/-- Runs a program, where methods are called as `call` says. -/
def run (call : Invoker (Recorded H)) : Program H → Action (Recorded H) Empty Slot
  | .done word => pure word
  | .call env f args _ next => do
    let answer ← callFunction call env f args
    record (Event.ofCall f args answer)
    (next answer).run call
  | .stub env name next => do
    let answer ← callStub env name
    (next answer).run call
  | .aside a next => do
    Action.update a.act
    let w ← Action.world
    (next w).run call

/-- How native functions run that are programs; `natives` tells which program a call runs. -/
def code (natives : NativeCall → Program H) : NativeCode (Recorded H) := fun call c => do
  record [.entered]
  let word ← (natives c).run call
  record [.left]
  return word

end Program

end GuestBoundary.Native
