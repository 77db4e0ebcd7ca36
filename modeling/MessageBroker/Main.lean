import MessageBroker.Cli.Run
/-!
# The broker program

Reads the command line, the `BROKER_*` environment variables and the two that choose
whether texts are marked in colour, runs the broker's start-up,
prints what the run shows and exits with its status. The host is taken to be one without a
network of its own, and a server that comes to listen is stopped at once, as an interrupt
stops it.
-/

open MessageBroker

/-- Reads the environment variables of the options, runs, prints and exits with the run's
status. -/
def main (args : List String) : IO UInt32 := do
  let names := Cli.Flag.all.filterMap Cli.Flag.envVar? ++ ["NO_COLOR", "CLICOLOR_FORCE"]
  let found ← names.mapM fun n => do pure (n, ← IO.getEnv n)
  let env := found.filterMap fun p => p.2.map (p.1, ·)
  let outcome := Cli.run args (fun k => env.lookup k) Net.Network.offline true
  IO.print outcome.stdout
  IO.eprint outcome.stderr
  pure (UInt32.ofNat (outcome.exitCode.getD 0))
