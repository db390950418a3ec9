import HolePunch.Frame.Transport

/-!
# Sessions on a frame buffer

One buffer over time: bytes are fed to it, messages are taken out of it, and messages are encoded at
its end. `perform` does one action. `exhaust` steps until a step gives nothing and, unlike `drain`,
goes on after errors; `feedAll` exhausts the buffer after each chunk that it is fed.
-/

namespace HolePunch.Frame

inductive Action where
  | feed (bytes : Bytes)
  | decode
  | decodeEof
  | encode (m : Message)

inductive Yield where
  | nothing
  | message (m : Message)
  | encoded
  | refused (error : ProtocolError)

/-- What a step gives, as the yield of an action. -/
def Yield.ofStep : Option (Except ProtocolError Message) → Yield
  | none => .nothing
  | some (.ok m) => .message m
  | some (.error e) => .refused e

/-- What an action gives, the buffer that it leaves, and what it reports. -/
structure Effect where
  yield : Yield
  buffer : Bytes
  events : List Event

def Step.effect (step : Step) : Effect := ⟨.ofStep step.result, step.buffer, step.events⟩

def perform (mode : Mode) (buffer : Bytes) : Action → Effect
  | .feed bytes => ⟨.nothing, buffer ++ bytes, []⟩
  | .decode => (decode mode buffer).effect
  | .decodeEof => (decodeEof mode buffer).effect
  | .encode m =>
    match m.encodeTo buffer with
    | (.ok (), now) => ⟨.encoded, now, []⟩
    | (.error e, now) => ⟨.refused e, now, []⟩

/-- Does actions one after the other. -/
def performAll (mode : Mode) (buffer : Bytes) : List Action → List Effect
  | [] => []
  | action :: later =>
    let effect := perform mode buffer action
    effect :: performAll mode effect.buffer later

/-! ### Steps until nothing is left to give -/

/-- What repeated steps give, errors included, and the buffer that is left. -/
structure Exhausted where
  items : List (Except ProtocolError Message)
  buffer : Bytes

/-- Steps until one gives nothing. -/
def exhaust (atEnd : Bool) (mode : Mode) (buffer : Bytes) : Exhausted :=
  match given : (step atEnd mode buffer).result with
  | none => ⟨[], (step atEnd mode buffer).buffer⟩
  | some item =>
    have : (step atEnd mode buffer).buffer.length < buffer.length :=
      length_step_lt (by simp [given])
    let later := exhaust atEnd mode (step atEnd mode buffer).buffer
    ⟨item :: later.items, later.buffer⟩
termination_by buffer.length

theorem exhaust_of_result_none {atEnd : Bool} {mode : Mode} {buffer : Bytes}
    (waits : (step atEnd mode buffer).result = none) :
    exhaust atEnd mode buffer = ⟨[], (step atEnd mode buffer).buffer⟩ := by
  rw [exhaust]
  split
  · rfl
  · next item given => cases given.symm.trans waits

theorem exhaust_of_result_some {atEnd : Bool} {mode : Mode} {buffer : Bytes}
    {item : Except ProtocolError Message} (given : (step atEnd mode buffer).result = some item) :
    exhaust atEnd mode buffer =
      let later := exhaust atEnd mode (step atEnd mode buffer).buffer
      ⟨item :: later.items, later.buffer⟩ := by
  rw [exhaust]
  split
  · next waits => cases given.symm.trans waits
  · next other again =>
    obtain rfl : item = other := Option.some.inj (given.symm.trans again)
    rfl

/-- Feeds chunks one by one, and exhausts the buffer after each. -/
def feedAll (mode : Mode) (buffer : Bytes) : List Bytes → Exhausted
  | [] => ⟨[], buffer⟩
  | chunk :: later =>
    let now := exhaust false mode (buffer ++ chunk)
    let rest := feedAll mode now.buffer later
    ⟨now.items ++ rest.items, rest.buffer⟩

end HolePunch.Frame
