import TextGrammar.Command.Run

/-!
# The program

The program looks up the file that its arguments name and the variables of the environment, draws a
seed, and prints what the command comes to.
-/

namespace TextGrammar

/-- What a path leads to. -/
def lookUpPath (path : Path) : IO Lookup := do
  if byteLength path.text > maxPathBytes || path.names.any (byteLength · > maxNameBytes) then
    return .nameTooLong
  try
    let bytes ← IO.FS.readBinFile (String.ofList path.text)
    return .found (.file bytes.toList)
  catch
    | .noFileOrDirectory .. => return .nothing
    | .inappropriateType .. => return .found .directory
    | e => throw e

def readEnvironment : IO Environment :=
  [maxDepthVariable, selectorVariable].filterMapM fun name => do
    return (← IO.getEnv (String.ofList name)).map fun value => (name, value.toList)

/-- A seed that nobody knows. -/
def drawSeed : IO Int := do
  return (← IO.getRandomBytes 8).toList.foldl (fun n b => 256 * n + b.toNat) 0

def carryOut (c : Command) : IO UInt32 := do
  let path := Path.ofText c.path
  let found ← lookUpPath path
  let around : Surroundings :=
    ⟨fun p => if p = path then found else .nothing, ← readEnvironment, ← drawSeed⟩
  let printout := c.run around
  IO.eprint (String.ofList printout.errors)
  IO.print (String.ofList printout.output)
  return UInt32.ofNat printout.exit

end TextGrammar

/-- Carries out the command that the arguments ask for. -/
def main (arguments : List String) : IO UInt32 := do
  match TextGrammar.Command.ofWords (arguments.map String.toList) with
  | .ok c => TextGrammar.carryOut c
  | .error fault =>
    IO.eprintln (String.ofList fault.message)
    return 2
