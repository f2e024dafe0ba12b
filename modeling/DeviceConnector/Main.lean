import DeviceConnector.CommandLine.Command
import DeviceConnector.Identifier.HardwareAddress
import DeviceConnector.Identifier.TimeBased
import DeviceConnector.Server
import Std.Async
import Std.Sync
import Std.Time
/-!
# The program

What the command line needs from the outside: arguments and environment, random bits, the clock and
the network. All decisions are made elsewhere; this module carries them out.
-/

namespace DeviceConnector.CommandLine

open Std.Async

def randomBits (width : Nat) : IO (BitVec width) := do
  let bytes ← IO.getRandomBytes (USize.ofNat (width / 8))
  return BitVec.ofNat width (Text.ofBigEndian bytes.data.toList)

def unixMillis : IO (BitVec 64) := do
  return BitVec.ofInt 64 (← Std.Time.Timestamp.now).toMillisecondsSinceUnixEpoch.val

def interfaces : IO (List HardwareAddress.Interface) := do
  let found ← Std.Net.interfaceAddresses
  return found.toList.map fun i =>
    let octet (b : UInt8) := String.ofList (Text.lowerHex 2 b.toNat)
    { name := i.name
      address := some (":".intercalate (i.physicalAddress.octets.toList.map octet)) }

def mintTimeBased (count : Nat) : IO (List Dsuid) := do
  let address ← try pure (HardwareAddress.first? (← interfaces)) catch _ => pure none
  let mut minter := Minter.ofHardwareAddress address (← randomBits 128)
  let mut minted := #[]
  for _ in [0:count] do
    let (d, next) := minter.mint (← unixMillis)
    minted := minted.push d
    minter := next
  return minted.toList

def mintRandom (count : Nat) : IO (List Dsuid) := do
  let mut minted := #[]
  for _ in [0:count] do
    minted := minted.push (Dsuid.ofRandom (← randomBits 128))
  return minted.toList

def log (logging : Logging) (level : LogLevel) (text : String) : IO Unit := do
  if logging.admits level then
    let now ← Std.Time.Timestamp.now
    let time := Std.Time.DateTime.ofTimestampWithZone now Std.Time.TimeZone.UTC
    IO.eprintln (logging.line time.toISO8601String level text)

structure Peer where
  socket : TCP.Socket.Client
  /-- Bodies on their way to the controller. -/
  outbound : Std.CloseableChannel Bytes

structure Running where
  server : Server
  peers : List (Nat × Peer) := []
  /-- The tasks that serve connections. -/
  tasks : List (AsyncTask Unit) := []

def fault (e : IO.Error) : Fault :=
  match e with
  | .permissionDenied _ _ text => ⟨.permissionDenied, text⟩
  | .timeExpired _ text => ⟨.timedOut, text⟩
  | .resourceBusy _ text => ⟨.addressInUse, text⟩
  | .unsupportedOperation _ text => ⟨.addressNotAvailable, text⟩
  | e => ⟨.other, toString e⟩

/-- Let something happen to the server, hand out what it queues, and let go of the connections that
it has closed. -/
def Running.apply (running : Std.Mutex Running) (event : Server.Event) : IO Unit :=
  running.atomically do
    let state ← get
    let (queued, server) := (state.server.handle (← IO.monoMsNow) event).drain
    for (id, body) in queued do
      if let some peer := state.peers.lookup id then
        let _ ← peer.outbound.trySend body
    let (peers, closed) := state.peers.partition fun (id, _) => server.connections.contains id
    for (_, peer) in closed do
      try peer.outbound.close catch _ => pure ()
    set { state with server, peers }

/-- Write frames until no more will come. -/
partial def writeFrames (peer : Peer) : Async Unit := do
  match ← Async.ofTask (← peer.outbound.recv) with
  | none => peer.socket.shutdown
  | some body =>
    match FrameCodec.unlimited.encode body [] with
    | .error _ => return
    | .ok frame => do
      peer.socket.send ⟨frame.toArray⟩
      writeFrames peer

/-- Read bytes until the connection is closed. -/
partial def readBytes (running : Std.Mutex Running) (stop : Std.CancellationToken) (id : Nat)
    (peer : Peer) : Async Unit := do
  let state ← running.atomically get
  if let some connection := state.server.connections.find? id then
    let limit := connection.idleSince + state.server.host.config.idleTimeout
    let remaining := limit - (← IO.monoMsNow)
    let event ← Selectable.one #[
      .case (peer.socket.recvSelector 65536) fun
        | some bytes => return some (Server.Event.received id bytes.data.toList)
        | none => return some (.ended id),
      .case (← Selector.sleep (.ofNat remaining)) fun _ =>
        return some .idleCheck,
      .case stop.selector fun _ => return none]
    if let some event := event then
      Running.apply running event
      readBytes running stop id peer

def serveConnection (running : Std.Mutex Running) (stop : Std.CancellationToken) (logging : Logging)
    (socket : TCP.Socket.Client) : Async Unit := do
  let peer : Peer := { socket, outbound := ← Std.CloseableChannel.new }
  let (id, config) ← running.atomically do
    let state ← get
    let id := state.server.nextId
    let server := state.server.handle (← IO.monoMsNow) .connected
    set { state with server, peers := (id, peer) :: state.peers }
    return (id, server.host.config)
  log logging .info ("controller connection " ++ toString id ++ " accepted")
  if config.tcpNodelay then
    try socket.noDelay catch _ => pure ()
  let writer : AsyncTask Unit ← async do
    try writeFrames peer
    catch e =>
      log logging .warn ("write on connection " ++ toString id ++ " failed: " ++ toString e)
      Running.apply running (.writerFailed id)
  try readBytes running stop id peer
  catch e =>
    log logging .warn ("read on connection " ++ toString id ++ " failed: " ++ toString e)
  Running.apply running (.ended id)
  await writer
  log logging .info ("controller connection " ++ toString id ++ " closed")

/-- Accept connections, and serve each with a task of its own. -/
partial def acceptConnections (running : Std.Mutex Running) (stop : Std.CancellationToken)
    (logging : Logging) (listener : TCP.Socket.Server) : Async Unit := do
  try
    let socket ← listener.accept
    let task ← async (serveConnection running stop logging socket)
    running.atomically do
      let state ← get
      let unfinished ← state.tasks.filterM fun task => return !(← IO.hasFinished task)
      set { state with tasks := task :: unfinished }
  catch e => log logging .warn ("accept failed: " ++ toString e)
  acceptConnections running stop logging listener

/-- Drop old requests at regular intervals. -/
partial def sweepRequests (running : Std.Mutex Running) : Async Unit := do
  sleep (.ofNat Server.sweepInterval)
  Running.apply running .sweep
  sweepRequests running

def networkAddress : SocketAddress → Std.Net.SocketAddress
  | .v4 address port => .v4 { addr := ⟨#v[address.a, address.b, address.c, address.d]⟩, port }
  | .v6 address _ port => .v6 { addr := ⟨address.groups⟩, port }

def ofNetworkAddress : Std.Net.SocketAddress → SocketAddress
  | .v4 address =>
    let octets := address.addr.octets
    .v4 ⟨octets[0], octets[1], octets[2], octets[3]⟩ address.port
  | .v6 address => .v6 ⟨address.addr.segments⟩ 0 address.port

def listen (address : SocketAddress) : IO (TCP.Socket.Server × SocketAddress) := do
  let listener ← TCP.Socket.Server.mk
  listener.bind (networkAddress address)
  listener.listen 1024
  return (listener, ofNetworkAddress (← listener.getSockName))

def serve (config : HostConfig) (vdcs : List (Dsuid × String)) (format : OutputFormat)
    (logging : Logging) : IO (Except CommandError Unit) := do
  let server := Server.new config vdcs
  let listening : Except IO.Error (TCP.Socket.Server × SocketAddress) ←
    try pure (.ok (← listen config.listen)) catch e => pure (.error e)
  match listening with
  | .error e => return .error (.ofHost "bind failed" (.transport (fault e)))
  | .ok (listener, address) =>
    let output ← IO.getStdout
    output.putStr (Output.listening format {
      listen := address.text
      dsuid := server.host.dsuid.text
      name := config.name
      vdcs := server.host.registry.vdcs.length })
    output.flush
    let interrupt ← Signal.Waiter.mk .sigint false
    let running ← Std.Mutex.new ({ server } : Running)
    let stop ← Std.CancellationToken.new
    let _ ← (acceptConnections running stop logging listener).toIO
    let _ ← (sweepRequests running).toIO
    let _ ← (← interrupt.wait).block
    log logging .info "shutting down"
    Running.apply running .shutdown
    stop.cancel
    for task in (← running.atomically get).tasks do
      task.block
    return .ok ()

/-- What a build for any machine says about its target. -/
def targets : List String := ["target: unknown"]

def run (invocation : Invocation) : IO (Except CommandError Unit) := do
  let output ← IO.getStdout
  let format := invocation.format.getD (if ← output.isTty then .table else .json)
  let print (text : String) : IO (Except CommandError Unit) := do
    output.putStr text
    return .ok ()
  match invocation.command.action format with
  | .error e => return .error e
  | .ok (.print text) => print text
  | .ok (.mintTimeBased count) => print (Output.dsuids format (← mintTimeBased count))
  | .ok (.mintRandom count) => print (Output.dsuids format (← mintRandom count))
  | .ok .printVersion => print (versionDetails targets)
  | .ok (.serve config demo) => serve config demo.toList format invocation.logging

def environment (flags : List Flag) : IO (List (String × String)) := do
  let mut found := #[]
  for flag in flags do
    if let some name := flag.environment then
      if let some value ← IO.getEnv name then
        found := found.push (name, value)
  return found.toList

def program (arguments : List String) : IO UInt32 := do
  let flags := grammar.flags ++ grammar.commands.flatMap (·.flags)
  let usage := Output.lines (usage grammar)
  match Invocation.ofArguments arguments (← environment flags) with
  | .error .help =>
    IO.print usage
    return UInt32.ofNat ExitCode.success
  | .error .version =>
    IO.print versionLine
    return UInt32.ofNat ExitCode.success
  | .error .rejected =>
    IO.eprint usage
    return UInt32.ofNat ExitCode.rejected
  | .ok invocation =>
    match ← run invocation with
    | .ok () => return UInt32.ofNat ExitCode.success
    | .error e =>
      IO.eprintln ("error: " ++ e.message)
      return UInt32.ofNat e.code

end DeviceConnector.CommandLine

def main (arguments : List String) : IO UInt32 :=
  DeviceConnector.CommandLine.program arguments
