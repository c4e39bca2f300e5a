import MonkeyLang.Machine.Step

/-!
# Runs of the machine

A program need not end, so a run is given a number of steps that it may take.  A run that has
used them up can go on later.  A machine that has halted does not run again.
-/

set_option autoImplicit false

namespace MonkeyLang.Machine

deriving instance DecidableEq for Except

/-- Takes steps until the machine halts, at most a given number of them. -/
def advance : Nat → Machine → Machine
  | 0, machine => machine
  | steps + 1, machine =>
    match Operation.step machine with
    | .ok .goesOn next => advance steps next
    | .ok .ends next => { next with status := .halted none }
    | .ok .crashes next => { next with status := .crashed }
    | .error fault next => { next with status := .halted (some fault) }

/-- How a run came out, unless its steps were used up or there is nobody left to tell. -/
def outcome? (machine : Machine) : Option (Except Fault Unit) :=
  match machine.status with
  | .halted none => some (.ok ())
  | .halted (some fault) => some (.error fault)
  | _ => none

/-- Runs a machine.  One that has halted stays as it is. -/
def run (steps : Nat) (machine : Machine) : Option (Except Fault Unit) × Machine :=
  match machine.status with
  | .halted _ => (some (.error .alreadyHalted), machine)
  | .crashed => (none, machine)
  | _ =>
    let stopped := advance steps { machine with status := .running }
    (stopped.outcome?, stopped)

end MonkeyLang.Machine
