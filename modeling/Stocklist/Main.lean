/-
  Stocklist/Main.lean
  ===================
  **The program.**

  Everything that the program decides is decided elsewhere; here files are read, lines are
  printed and connections are taken.
-/
import Std.Async.Signal
import Std.Async.TCP
import Stocklist.Http.Exchange
import Stocklist.Startup

namespace Stocklist

open Std.Async

/-! ### What the system says -/

/-- The number and the words with which the system explains an error. -/
def systemError : IO.Error → Option (UInt32 × String)
  | .alreadyExists _ code words | .otherError code words | .resourceBusy code words
  | .resourceVanished code words | .unsupportedOperation code words
  | .hardwareFault code words | .unsatisfiedConstraints code words
  | .illegalOperation code words | .protocolError code words | .timeExpired code words
  | .interrupted _ code words | .noFileOrDirectory _ code words
  | .invalidArgument _ code words | .permissionDenied _ code words
  | .resourceExhausted _ code words | .inappropriateType _ code words
  | .noSuchThing _ code words => some (code, words)
  | .unexpectedEof | .userError _ => none

/-- The number of an address that no interface of the machine has. -/
def notLocal : Nat := 99

/-- An error in words, with its number.  A number below zero stands for its opposite. -/
def systemReason (e : IO.Error) : String :=
  match systemError e with
  | none => toString e
  | some (code, words) =>
    let number := code.toInt32.toInt.natAbs
    let words := if number = notLocal then "Cannot assign requested address" else words.capitalize
    s!"{words} (os error {number})"

def openFile (path : String) : IO (Except String Catalog.Source) := do
  match ← (IO.FS.Handle.mk path .read).toBaseIO with
  | .error e => return .error (systemReason e)
  | .ok handle =>
    match ← handle.readBinToEnd.toBaseIO with
    | .error e => return .ok ⟨[], some (systemReason e)⟩
    | .ok bytes => return .ok ⟨bytes.toList, none⟩

def variableNames : List String :=
  Host.filterVariable :: Setting.all.map Setting.variableName

/-! ### Serving -/

def SocketAddress.toSystem (a : SocketAddress) : Std.Net.SocketAddress :=
  match a.host with
  | .v4 bytes => .v4 ⟨⟨bytes⟩, a.port⟩
  | .v6 groups _ => .v6 ⟨⟨groups⟩, a.port⟩

/-- Takes an address, or tells why it cannot be taken. -/
def listenOn (server : TCP.Socket.Server) (a : SocketAddress) : IO (Option String) := do
  let taken := do
    server.bind a.toSystem
    server.listen 1024
  match ← taken.toBaseIO with
  | .ok () => return none
  | .error e => return some (systemReason e)

def print (p : Printed) : IO Unit := do
  IO.print p.output
  IO.eprint p.errors
  (← IO.getStdout).flush

partial def converse (c : Catalog) (s : SearchSettings) (filter : Log.Filter)
    (client : TCP.Socket.Client) (read : ByteArray) : Async Unit := do
  match Http.answer? c s.pageSize read.toList with
  | some (response, entries) =>
    print (.ofEntries filter entries)
    client.send response.text.toUTF8
    client.shutdown
  | none =>
    match ← client.recv? 65536 with
    | some more => converse c s filter client (read ++ more)
    | none => client.shutdown

def stopping : Log.Entry :=
  ⟨.info, "catalog_search::server", "Shutdown requested, draining connections"⟩

/-- Takes connections until the program is interrupted. -/
partial def takeConnections (c : Catalog) (s : SearchSettings) (filter : Log.Filter)
    (server : TCP.Socket.Server) (stop : Signal.Waiter) : Async Unit := do
  let next ← Selectable.one #[
    .case server.acceptSelector fun client => return some client,
    .case stop.selector fun _ => return none]
  match next with
  | none => print (.ofEntries filter [stopping])
  | some client =>
    background (converse c s filter client .empty)
    takeConnections c s filter server stop

/-- Runs the program until it ends, and gives its exit code. -/
def run (arguments : List String) : IO UInt32 := do
  let environment ← variableNames.mapM fun name => return (name, ← IO.getEnv name)
  let host : Host :=
    { arguments
      environment := fun name => (environment.lookup name).join
      openPath := fun _ => .error ""
      refusal? := fun _ => none }
  match host.settings with
  | .error i =>
    let printed := i.printed host.settingValues
    print printed
    return printed.exitCode?.getD 0
  | .ok s =>
    let opened ← openFile s.data
    match { host with openPath := fun _ => opened }.catalog s with
    | (printed, .error e) =>
      let printed := printed.append (Failure.ofLoad s.data e).printed
      print printed
      return printed.exitCode?.getD 0
    | (printed, .ok c) =>
      print printed
      let server ← TCP.Socket.Server.mk
      match ← listenOn server s.bind with
      | some reason =>
        let printed := (Failure.ofBind s.bind reason).printed
        print printed
        return printed.exitCode?.getD 0
      | none =>
        print (.ofEntries host.filter (Host.listening s.bind))
        let stop ← Signal.Waiter.mk .sigint false
        (takeConnections c s.searchSettings host.filter server stop).block
        return 0

end Stocklist

def main (arguments : List String) : IO UInt32 :=
  Stocklist.run arguments
