import MicroRosAgent.Text.Tokens
import MicroRosAgent.Interleaving.Program
import Mathlib.Data.List.TakeWhile

/-! # The start of the agent

`main` hands its arguments to `Agent::create`, up to the first `--ros-args`.  A launch file
passes all of them as one token, which `main` means to split: but it looks for the flag
among arguments copied from before the flag, so the search always fails
(`rosArgs_not_copied`) and the token reaches `create` whole.
-/

namespace MicroRosAgent.Main

open Interleaving Text

/-! ## Calls -/

inductive Call where
  | create (arguments : List Text)
  | run
  | printError (message : Text)

abbrev Call.Result : Call → Type
  | .create _ => Bool
  | .run | .printError _ => Unit

abbrev create (arguments : List Text) : Program Call Call.Result Bool :=
  Program.perform (Call.create arguments)

abbrev run : Program Call Call.Result Unit := Program.perform Call.run

abbrev printError (message : Text) : Program Call Call.Result Unit :=
  Program.perform (Call.printError message)

/-! ## `main` -/

def rosArgs : Text := "--ros-args".toList

/-- What the loop over `argv` leaves: the copied arguments and `argc`. -/
structure Scan where
  params : List Text
  argc : Nat
  deriving DecidableEq, Repr

def scanArguments : List Text → Nat → List Text → Scan
  | [], i, params => ⟨params, i⟩
  | argument :: rest, i, params =>
      if argument = rosArgs then ⟨params, i⟩  -- argc = i; break
      else scanArguments rest (i + 1) (params ++ [argument])

def singleVariableMessage : Text :=
  ("Error: when using ros2 launch, please specify " ++
    "your arguments in a single variable.\n" ++
    "Instead of 'arguments: \x7b'udp4', '-p', '8888'\x7d', do " ++
    "'arguments: \x7b'udp4 -p 8888'\x7d\n").toList

def main (argv : List Text) : Program Call Call.Result Nat := do
  let scan := scanArguments argv 0 []
  let it := scan.params.findIdx (· = rosArgs)
  if it ≠ scan.params.length then
    if it ≠ 2 then
      printError singleVariableMessage
      return 1
    else
      match argv.head?, scan.params[1]? with
      | some program, some agentArgs =>
          let success ← create (program :: words agentArgs)
          if success then
            run
            return 0
          else return 1
      | _, _ => .fault
  else
    let success ← create (argv.take scan.argc)
    if success then
      run
      return 0
    else return 1

/-! ## What reaches `create` -/

/-- `create` returns `success`; its arguments are recorded. -/
def record (success : Bool) : Handler Call Call.Result (List (List Text))
  | .create arguments, created => some (success, created ++ [arguments])
  | .run, created => some ((), created)
  | .printError _, created => some ((), created)

/-- The arguments of every call of `create` that `main` makes. -/
def createCalls (success : Bool) (argv : List Text) : Option (List (List Text)) :=
  ((main argv).run (record success) []).map (·.2)

/-- The arguments in front of the first flag. -/
def beforeFlag (argv : List Text) : List Text := argv.takeWhile (· ≠ rosArgs)

@[simp] theorem beforeFlag_nil : beforeFlag [] = [] := rfl

@[simp] theorem beforeFlag_cons_flag (rest : List Text) : beforeFlag (rosArgs :: rest) = [] := by
  simp [beforeFlag]

@[simp] theorem beforeFlag_cons {argument : Text} (other : argument ≠ rosArgs) (rest : List Text) :
    beforeFlag (argument :: rest) = argument :: beforeFlag rest := by
  simp [beforeFlag, other]

theorem beforeFlag_append {front : List Text} (free : rosArgs ∉ front) (back : List Text) :
    beforeFlag (front ++ rosArgs :: back) = front := by
  induction front with
  | nil => exact beforeFlag_cons_flag back
  | cons argument front ih =>
    simp only [List.mem_cons, not_or] at free
    rw [List.cons_append, beforeFlag_cons (Ne.symm free.1), ih free.2]

theorem scanArguments_eq (argv : List Text) (i : Nat) (params : List Text) :
    scanArguments argv i params = ⟨params ++ beforeFlag argv, i + (beforeFlag argv).length⟩ := by
  induction argv generalizing i params with
  | nil => simp [scanArguments]
  | cons argument rest ih =>
    by_cases flag : argument = rosArgs
    · simp [scanArguments, flag]
    · simp [scanArguments, flag, ih, Nat.add_assoc, Nat.add_comm 1]

/-- The loop stops at the flag before it copies it. -/
theorem rosArgs_not_copied (argv : List Text) : rosArgs ∉ (scanArguments argv 0 []).params := by
  rw [scanArguments_eq, List.nil_append]
  intro member
  simpa using List.mem_takeWhile_imp member

/-- So `create` gets what stands in front of the flag, whatever it is. -/
theorem createCalls_eq (success : Bool) (argv : List Text) :
    createCalls success argv = some [beforeFlag argv] := by
  have notFound : (scanArguments argv 0 []).params.findIdx (· = rosArgs) =
      (scanArguments argv 0 []).params.length := by
    apply List.findIdx_eq_length_of_false
    intro param member
    have other : param ≠ rosArgs := fun flag => rosArgs_not_copied argv (flag ▸ member)
    simpa using other
  have taken : argv.take (scanArguments argv 0 []).argc = beforeFlag argv := by
    rw [scanArguments_eq, Nat.zero_add]
    exact (List.prefix_iff_eq_take.mp (List.takeWhile_prefix _)).symm
  cases success <;> simp [createCalls, main, notFound, taken, record]

/-! ## The two launch forms -/

def listForm (program : Text) (tokens trailing : List Text) : List Text :=
  program :: tokens ++ rosArgs :: trailing

/-- The form of a launch file. -/
def singleForm (program : Text) (tokens trailing : List Text) : List Text :=
  [program, join ' ' tokens] ++ rosArgs :: trailing

/-- Both forms call `create` once, with the program and the tokens. -/
def SameArguments (program : Text) (tokens trailing : List Text) : Prop :=
  ∀ success, createCalls success (listForm program tokens trailing) = some [program :: tokens] ∧
    createCalls success (singleForm program tokens trailing) = some [program :: tokens]

theorem join_ne_rosArgs {tokens : List Text} (free : rosArgs ∉ tokens) : join ' ' tokens ≠ rosArgs := by
  obtain _ | ⟨first, _ | ⟨second, others⟩⟩ := tokens
  · decide
  · intro same
    exact free (List.mem_singleton.mpr same.symm)
  · intro same
    have blank : ' ' ∈ join ' ' (first :: second :: others) := by simp
    rw [same] at blank
    exact absurd blank (by decide)

/-- The launch forms agree exactly on a single token, which needs no splitting. -/
theorem sameArguments_iff {program : Text} {tokens trailing : List Text} (free : rosArgs ∉ tokens) :
    SameArguments program tokens trailing ↔ program ≠ rosArgs ∧ tokens.length = 1 := by
  have single : rosArgs ∉ [join ' ' tokens] := by
    simpa using Ne.symm (join_ne_rosArgs free)
  by_cases flag : program = rosArgs
  · -- nothing stands in front of the flag
    subst flag
    simp [SameArguments, createCalls_eq, listForm]
  have list : beforeFlag (listForm program tokens trailing) = program :: tokens := by
    rw [listForm, List.cons_append, beforeFlag_cons flag, beforeFlag_append free]
  have launch : beforeFlag (singleForm program tokens trailing) = [program, join ' ' tokens] := by
    rw [singleForm, List.cons_append, beforeFlag_cons flag, beforeFlag_append single]
  simp only [SameArguments, createCalls_eq, list, launch, flag, ne_eq, not_false_eq_true, true_and,
    Option.some.injEq, List.cons.injEq, and_true, forall_const]
  constructor
  · intro same
    rw [← same, List.length_singleton]
  · intro one
    obtain ⟨token, rfl⟩ := List.length_eq_one_iff.mp one
    rfl

theorem sameArguments_iff_udp4 :
    SameArguments "micro_ros_agent".toList ["udp4".toList] [] ↔
      "micro_ros_agent".toList ≠ rosArgs ∧ ["udp4".toList].length = 1 :=
  sameArguments_iff (by decide)

theorem launch_form_not_split :
    ¬ SameArguments "micro_ros_agent".toList ["udp4".toList, "-p".toList, "8888".toList] [] := by
  intro same
  exact absurd (same true).2 (by decide)

end MicroRosAgent.Main
