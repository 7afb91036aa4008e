import VoiceRelay.Shell.Run

/-!
# Programs of the host

What a program prints that a list of client times is taken from. It has nothing to read, and it may
take only so long. A name or an argument with the octet zero in it can be given to no program.

**Results.**

- `run_zero`: a name with the octet zero starts nothing.
-/

namespace VoiceRelay
namespace Program

/-- What running a program gives. -/
inductive Outcome
  | unknown
  | overlong
  | finished (output : List UInt8)
  deriving DecidableEq, Repr

section Running

/-- What a program with some arguments gives. -/
def run (name : String) (args : List String) : Outcome :=
  if (name :: args).any fun a => a.toList.contains '\x00' then .unknown
  else
    match Shell.Run.start (Shell.ofText name) (args.map Shell.ofText) with
    | none => .unknown
    | some r =>
      match Shell.Run.shown r with
      | none => .overlong
      | some out => .finished (Shell.toOctets out)

/-- A name with the octet zero starts nothing. -/
theorem run_zero {name : String} (args : List String) (h : name.toList.contains '\x00' = true) :
    run name args = .unknown := by
  simp only [run, List.any_cons, h, Bool.true_or, if_true]

end Running

end Program
end VoiceRelay
