import Mathlib.Data.List.Count
import RustyPi.Lib.Reach
import RustyPi.Usb.Descriptors

/-! Boot protocol keyboards: their reports, `rustypi-core/src/usb/mod.rs`, key repeat,
`rustypi-core/src/keys.rs`, and `poll` of `src/sys/usb.rs`. A report lists the keys that are held,
so a key is typed when a report has it and the one before hasn't.
-/

namespace RustyPi.Usb

open RustyPi.Reach

/-- A key usage meaning "too many keys held to tell". -/
def rollover : UInt8 := 1

structure KeyboardReport where
  modifiers : UInt8
  keys : List UInt8
  sized : keys.length = 6
  deriving DecidableEq, Repr

namespace KeyboardReport

def length : Nat := 8

def parse (bytes : List UInt8) : Except DescriptorError KeyboardReport :=
  if short : bytes.length < length then .error .truncated
  else
    .ok
      {
        modifiers := bytes[0]?.getD 0
        keys := (bytes.drop 2).take 6
        sized := by
          rw [length] at short
          simp
          omega
      }

/-- Keys held now that weren't in `previous`, the report before: the ones just pressed. -/
def pressedSince (report previous : KeyboardReport) : List UInt8 :=
  report.keys.filter (fun key =>
    !report.keys.contains rollover && rollover < key && !previous.keys.contains key)

end KeyboardReport

/-- The key that repeats while it is held, and when it next does. -/
structure Repeater where
  held : Option (UInt8 × Nat)
  deriving DecidableEq, Repr

namespace Repeater

def delayUs : Nat := 500_000

def rateUs : Nat := 33_000

def new : Repeater := { held := none }

def pressed (key : UInt8) (nowUs : Nat) : Repeater := { held := some (key, nowUs + delayUs) }

def stop : Repeater := { held := none }

/-- The key to type again, if its time has come. -/
def due (repeater : Repeater) (held : List UInt8) (nowUs : Nat) : Repeater × Option UInt8 :=
  match repeater.held with
  | none => (repeater, none)
  | some (key, next) =>
    if key ∉ held then (stop, none)
    else if nowUs < next then (repeater, none)
    else
      -- from when it was due, unless that is a whole repeat ago
      let following := if nowUs < next + rateUs then next + rateUs else nowUs + rateUs
      ({ held := some (key, following) }, some key)

end Repeater

/-- What asking the keyboard for a report gave. -/
inductive Polled
  | noBus
  | failed
  | nothing
  | answered (bytes : List UInt8)
  deriving DecidableEq, Repr

def Polled.isAnswered : Polled → Bool
  | .answered _ => true
  | _ => false

structure KeyboardState where
  previous : KeyboardReport
  repeater : Repeater
  failing : Bool
  deriving DecidableEq, Repr

namespace KeyboardState

def new : KeyboardState :=
  {
    previous := { modifiers := 0, keys := List.replicate 6 0, sized := rfl }
    repeater := .new
    failing := false
  }

/-- Types the held key again if it is due. -/
def typeDue (state : KeyboardState) (nowUs : Nat) : KeyboardState × Option UInt8 :=
  let (repeater, key) := state.repeater.due state.previous.keys nowUs
  ({ state with repeater }, key)

/-- The keys typed because they were pressed, and the one that repeats. `repeats` is what `type_key`
returns for a key, `readUs` when the report is read and `dueUs` when a repeat is looked for.
-/
def poll (state : KeyboardState) (polled : Polled) (repeats : UInt8 → Bool) (readUs dueUs : Nat)
    : KeyboardState × List UInt8 × Option UInt8 :=
  match polled with
  | .noBus => (state, [], none)
  | .failed => ({ state with failing := true }, [], none)
  | .nothing =>
    let (state, again) := { state with failing := false }.typeDue dueUs
    (state, [], again)
  | .answered bytes =>
    let (state, pressed) :=
      match KeyboardReport.parse bytes with
      | .error _ => ({ state with failing := false }, [])
      | .ok report =>
        let pressed := report.pressedSince state.previous
        let repeater := pressed.foldl (fun _ key =>
          if repeats key then Repeater.pressed key readUs else Repeater.stop) state.repeater
        ({ previous := report, repeater, failing := false }, pressed)
    let (state, again) := state.typeDue dueUs
    (state, pressed, again)

end KeyboardState

/-- The keys that are held, the keyboard task, and how often it has typed each key since it was
pressed last, without repeats.
-/
structure Typing where
  held : List UInt8
  state : KeyboardState
  typed : UInt8 → Nat

inductive KeyEvent
  | press (key : UInt8)
  | release (key : UInt8)
  | poll (polled : Polled) (repeats : UInt8 → Bool) (readUs dueUs : Nat)

namespace Typing

def start : Typing := { held := [], state := .new, typed := fun _ => 0 }

/-- Reports list the held keys, up to six and in any order, or say that there are more. -/
def Lists (held keys : List UInt8) : Prop :=
  if held.length ≤ 6 then keys.Perm (held ++ List.replicate (6 - held.length) 0)
  else keys = List.replicate 6 rollover

instance (held keys : List UInt8) : Decidable (Lists held keys) :=
  inferInstanceAs (Decidable (ite ..))

def Reports (typing : Typing) : Polled → Prop
  | .answered bytes =>
    bytes.length = KeyboardReport.length ∧ Lists typing.held ((bytes.drop 2).take 6)
  | _ => True

instance (typing : Typing) : DecidablePred typing.Reports
  | .answered _ => inferInstanceAs (Decidable (_ ∧ _))
  | .noBus | .failed | .nothing => .isTrue trivial

def step (typing : Typing) : KeyEvent → Option Typing
  | .press key =>
    if rollover < key ∧ key ∉ typing.held then
      some { typing with
        held := key :: typing.held
        typed := Function.update typing.typed key 0 }
    else none
  | .release key =>
    if key ∈ typing.held then some { typing with held := typing.held.erase key } else none
  | .poll polled repeats readUs dueUs =>
    if typing.Reports polled then
      let (state, pressed, _) := typing.state.poll polled repeats readUs dueUs
      some { typing with state, typed := fun key => typing.typed key + pressed.count key }
    else none

/-- No report says that too many keys are held while `key` is, once it was typed. -/
def Clear (key : UInt8) (typing : Typing) : KeyEvent → Prop
  | .poll polled _ _ _ =>
    polled.isAnswered
    → key ∈ typing.held
    → 0 < typing.typed key
    → typing.held.length ≤ 6
  | _ => True

instance (key : UInt8) (typing : Typing) : DecidablePred (Clear key typing)
  | .poll _ _ _ _ => inferInstanceAs (Decidable (_ → _ → _ → _))
  | .press _ | .release _ => .isTrue trivial

variable {typing after : Typing} {key : UInt8} {event : KeyEvent}

theorem mem_pressedSince {report previous : KeyboardReport}
    : key ∈ report.pressedSince previous
      ↔ key ∈ report.keys ∧ rollover ∉ report.keys ∧ rollover < key ∧ key ∉ previous.keys := by
  simp [KeyboardReport.pressedSince, and_assoc]

/-- A poll keeps the last report and types nothing anew, or it types what its report has and the one
before hasn't.
-/
theorem poll_spec (state : KeyboardState) {polled : Polled} (repeats : UInt8 → Bool)
    (readUs dueUs : Nat) (reports : typing.Reports polled)
    : let (next, pressed, _) := state.poll polled repeats readUs dueUs
      pressed = next.previous.pressedSince state.previous
      ∧ (next.previous = state.previous
        ∨ polled.isAnswered ∧ Lists typing.held next.previous.keys) := by
  have none : [] = state.previous.pressedSince state.previous := by
    refine (List.eq_nil_iff_forall_not_mem.mpr (fun key member => ?_)).symm
    obtain ⟨listed, _, _, unlisted⟩ := mem_pressedSince.mp member
    exact unlisted listed
  cases polled with
  | noBus | failed | nothing => exact ⟨none, Or.inl rfl⟩
  | answered bytes =>
    obtain ⟨long, lists⟩ := reports
    rw [KeyboardState.poll, KeyboardReport.parse, dif_neg (by omega)]
    exact ⟨rfl, Or.inr ⟨rfl, lists⟩⟩

/-- What is known of a key: it is typed once at most, and once typed it is in the last report. -/
structure Once (key : UInt8) (typing : Typing) : Prop where
  distinct : typing.held.Nodup
  keys : ∀ other ∈ typing.held, rollover < other
  once : typing.typed key ≤ 1
  listed : key ∈ typing.held → 0 < typing.typed key → key ∈ typing.state.previous.keys

/-- A report types a key at most once, and only if it is held. -/
theorem Once.report (once : Once key typing) {report : KeyboardReport} (previous : KeyboardReport)
    (lists : Lists typing.held report.keys)
    : (typing.held.length ≤ 6 → key ∈ typing.held → key ∈ report.keys)
      ∧ (report.pressedSince previous).count key ≤ 1
      ∧ (key ∈ report.pressedSince previous → key ∈ typing.held ∧ typing.held.length ≤ 6) := by
  unfold Lists at lists
  split at lists
  · rename_i few
    have pressed (member : key ∈ report.pressedSince previous) : key ∈ typing.held ∧ key ≠ 0 := by
      obtain ⟨listed, _, above, _⟩ := mem_pressedSince.mp member
      have nonzero : key ≠ 0 := by
        rintro rfl
        exact absurd above (by decide)
      refine ⟨(List.mem_append.mp (lists.mem_iff.mp listed)).resolve_right ?_, nonzero⟩
      exact fun zero => nonzero (List.mem_replicate.mp zero).2
    refine ⟨fun _ held => lists.mem_iff.mpr (List.mem_append_left _ held), ?_,
      fun member => ⟨(pressed member).1, few⟩⟩
    by_contra more
    have nonzero := (pressed (List.count_pos_iff.mp (by omega))).2
    refine more (Nat.le_trans (List.filter_sublist.count_le key) ?_)
    rw [lists.count_eq, List.count_append, List.count_replicate,
      if_neg (by simpa using nonzero.symm)]
    exact List.nodup_iff_count.mp once.distinct key
  · rename_i many
    have none : report.pressedSince previous = [] := by simp [KeyboardReport.pressedSince, lists]
    simp [none, many]

theorem Once.step (once : Once key typing) (clear : Clear key typing event)
    (taken : typing.step event = some after)
    : Once key after := by
  have bound := once.once
  have listed := once.listed
  cases event with
  | press other =>
    obtain ⟨⟨above, fresh⟩, taken⟩ := Option.ite_none_right_eq_some.mp taken
    cases taken
    exact ⟨List.nodup_cons.mpr ⟨fresh, once.distinct⟩,
      List.forall_mem_cons.mpr ⟨above, once.keys⟩, by grind, by grind⟩
  | release other =>
    obtain ⟨held, taken⟩ := Option.ite_none_right_eq_some.mp taken
    cases taken
    exact ⟨once.distinct.erase other, fun _ member => once.keys _ (List.mem_of_mem_erase member),
      bound, fun held => listed (List.mem_of_mem_erase held)⟩
  | poll polled repeats readUs dueUs =>
    simp only [Typing.step, Option.ite_none_right_eq_some] at taken
    have spec := poll_spec typing.state repeats readUs dueUs taken.1
    generalize typing.state.poll polled repeats readUs dueUs = result at spec taken
    obtain ⟨next, pressed, _⟩ := result
    obtain ⟨rfl, previous⟩ := spec
    obtain rfl := Option.some.inj taken.2
    have fresh (member : key ∈ next.previous.pressedSince typing.state.previous) :=
      (mem_pressedSince.mp member).2.2.2
    rcases previous with same | ⟨answered, lists⟩
    · refine ⟨once.distinct, once.keys, ?_, ?_⟩ <;> grind [mem_pressedSince]
    · obtain ⟨found, atMost, only⟩ := once.report typing.state.previous lists
      refine ⟨once.distinct, once.keys, ?_, ?_⟩ <;> grind [Clear, List.count_pos_iff]

/-- However keys are pressed and released, each is typed at most once between its press and its
release, if no report says that too many keys are held after it was typed.
-/
theorem types_once (key : UInt8) {typing : Typing}
    (run : Reaches step (Clear key) start typing)
    : typing.typed key ≤ 1 := by
  have once : Once key typing :=
    run.invariant ⟨.nil, by simp [start], Nat.zero_le _, by simp [start]⟩
      (fun _ _ _ once clear taken => once.step clear taken)
  exact once.once

def listing (keys : List UInt8) : KeyEvent := .poll (.answered ([0, 0] ++ keys)) (fun _ => true) 0 0

/-- Two keys are held in turn, and both together in between. -/
theorem types_once_of_two
    : ∃ typing, Reaches step (Clear 4) start typing ∧ typing.typed 4 = 1 ∧ typing.typed 4 ≤ 1 := by
  have executed : (runAll step (Clear 4) start [.press 4, listing [4, 0, 0, 0, 0, 0], .press 5,
      listing [5, 4, 0, 0, 0, 0], .release 5, listing [0, 4, 0, 0, 0, 0]]).any (fun typing =>
        typing.typed 4 == 1) = true := by
    decide +kernel
  obtain ⟨typing, run, typed⟩ := Reaches.of_check executed
  exact ⟨typing, run, beq_iff_eq.mp typed, types_once 4 run⟩

/-- With seven keys held, the report doesn't say which; when one of them is released, the one that
was typed before is typed again.
-/
theorem typed_twice
    : ∃ typing, Reaches step anyEvent start typing ∧ 4 ∈ typing.held ∧ typing.typed 4 = 2 := by
  have executed : (runAll step anyEvent start [.press 4, listing [4, 0, 0, 0, 0, 0], .press 5,
      .press 6, .press 7, .press 8, .press 9, .press 10, listing [1, 1, 1, 1, 1, 1], .release 10,
      listing [4, 5, 6, 7, 8, 9]]).any (fun typing =>
        decide (4 ∈ typing.held) && typing.typed 4 == 2) = true := by
    decide +kernel
  obtain ⟨typing, run, found⟩ := Reaches.of_check executed
  rw [Bool.and_eq_true, decide_eq_true_eq, beq_iff_eq] at found
  exact ⟨typing, run, found⟩

end Typing

end RustyPi.Usb
