import ScriptBuiltins.Output.Sink

namespace ScriptBuiltins

structure Buffered where
  sink : Sink
  capacity : Nat
  pending : List UInt8 := []
  deriving DecidableEq

namespace Buffered

def drain : Task Buffered OutputError Unit := fun b =>
  let (error, rest, sink) := b.sink.push .drainedNothing b.pending
  { exit := Sink.exitOf error, state := { b with sink, pending := rest } }

def onSink {ε α : Type} (task : Task Sink ε α) : Task Buffered ε α := fun b =>
  let a := task b.sink
  { exit := a.exit, state := { b with sink := a.state }, events := a.events }

def spare (b : Buffered) : Nat := b.capacity - b.pending.length

/-- Drains the buffer if a payload does not fit in it. A payload smaller than the buffer is then
kept, and any other sent on. -/
def writeAll (bytes : List UInt8) : Task Buffered OutputError Unit := do
  let b ← .read
  if b.spare < bytes.length then drain
  if bytes.length < b.capacity then
    .modify fun b => { b with pending := b.pending ++ bytes }
  else onSink (Sink.writeAll bytes)

def flush : Task Buffered OutputError Unit := do
  drain
  onSink Sink.flush

instance : Writer Buffered := ⟨writeAll, flush⟩

end Buffered
end ScriptBuiltins
