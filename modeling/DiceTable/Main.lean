import DiceTable.Console.Prompt

/-!
# The console

Reads lines from the standard input and prints what the prompt makes of them.  Settings come from
the environment.  As no server can be reached, nothing that is printed depends on the time or on
chance, and both stand still.
-/

namespace DiceTable.Console

/-- The variables that are looked up. -/
def settingNames : List String :=
  ["CRITCAST_SOCKET_URL", "CRITCAST_SERVER_URL", "CRITCAST_WIRE_FORMAT"]

/-- Prints the lines for a line of input. -/
def print (output : IO.FS.Stream) (printed : Printed) : IO Unit := do
  for line in printed.events ++ printed.answers do
    output.putStrLn line
  output.flush

/-- Reads lines until the input ends or the user quits. -/
partial def loop (input output : IO.FS.Stream) (p : Prompt) : IO Prompt := do
  let line ← input.getLine
  if line.isEmpty then return p
  let (p, printed) := p.enter line
  print output printed
  if p.finished then return p else loop input output p

end DiceTable.Console

open DiceTable DiceTable.Console in
/-- Runs the console. -/
def main : IO Unit := do
  let input ← IO.getStdin
  let output ← IO.getStdout
  let settings ← settingNames.mapM fun name => do return (name, ← IO.getEnv name)
  let start := Prompt.start (fun name => (settings.lookup name).join) .epoch fun _ => 0
  print output { answers := helpLines }
  let last ← loop input output start
  print output last.stop.2
