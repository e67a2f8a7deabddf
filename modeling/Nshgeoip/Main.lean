import Nshgeoip.CheckDb
import Nshgeoip.Server.Lifecycle

/-!
`main.cpp`: the argument loop, the choice of a mode, and the health-check client.

The loop reads the arguments from the left; an option takes the argument after it
whatever that looks like, and the first argument that is none of the known ones ends
the program. The modes are chosen afterwards, so the options may stand in any order.
`argv` holds C strings, so an argument has no NUL.
-/

namespace Nshgeoip

open ByteText

/-! ### Arguments -/

/-- The variables the argument loop sets. -/
structure Options where
  configPath : Bytes := ascii "/etc/nshgeoip/nshgeoip.conf"
  configPathExplicit : Bool := false
  checkDbRequested : Bool := false
  checkDbPath : Bytes := []
  checkDbFormat : Bytes := ascii "table"
  healthCheckRequested : Bool := false
  healthCheckSocket : Bytes := []
  healthCheckPort : Int := 0

/-- What the program is to do. A complaint goes to the standard error and ends it with
status 2; after an unknown argument the help follows. -/
inductive Mode where
  | version
  | help
  | usage (complaint : Bytes) (withHelp : Bool)
  | checkDb (path : Bytes) (format : DbMetadataFormat)
  | healthCheck (socketPath : Bytes) (port : Int)
  | daemon (configPath : Bytes) (explicitPath : Bool)

/-- The options that take the argument after them. -/
inductive ValueOption where
  | checkDb
  | format
  | config
  | socket
  | port
  deriving DecidableEq

namespace ValueOption

def text : ValueOption → String
  | checkDb => "--check-db"
  | format => "--format"
  | config => "--config"
  | socket => "--socket"
  | port => "--port"

/-- What is said when the argument is missing. -/
def missing : ValueOption → String
  | checkDb => "--check-db requires a path argument\n"
  | format => "--format requires a value (table, json, or ini)\n"
  | config => "--config requires a path argument\n"
  | socket => "--socket requires a path argument\n"
  | port => "--port requires a value\n"

/-- The branch of the option, once it has its argument. -/
def set (o : Options) (value : Bytes) : ValueOption → Except Mode Options
  | checkDb => .ok { o with checkDbPath := value, checkDbRequested := true }
  | format => .ok { o with checkDbFormat := value }
  | config => .ok { o with configPath := value, configPathExplicit := true }
  | socket => .ok { o with healthCheckSocket := value }
  | port =>
      match parsePort value with
      | some number => .ok { o with healthCheckPort := number }
      | none => .error (.usage (ascii "invalid --port value: " ++ value ++ ascii "\n") false)

end ValueOption

inductive Argument where
  | version
  | help
  | healthCheck
  | option (o : ValueOption)
  deriving DecidableEq

/-- The comparisons of the loop. -/
def Argument.ofText (arg : Bytes) : Option Argument :=
  if arg = ascii "--version" then some .version
  else if arg = ascii "--help" ∨ arg = ascii "-h" then some .help
  else if arg = ascii ValueOption.checkDb.text then some (.option .checkDb)
  else if arg = ascii ValueOption.format.text then some (.option .format)
  else if arg = ascii ValueOption.config.text then some (.option .config)
  else if arg = ascii "--health-check" then some .healthCheck
  else if arg = ascii ValueOption.socket.text then some (.option .socket)
  else if arg = ascii ValueOption.port.text then some (.option .port)
  else none

/-- The loop over `argv`: the options, or the mode it ends with at once. -/
def parseArgs : List Bytes → Options → Except Mode Options
  | [], o => .ok o
  | arg :: rest, o =>
      match Argument.ofText arg, rest with
      | some .version, _ => .error .version
      | some .help, _ => .error .help
      | some .healthCheck, rest => parseArgs rest { o with healthCheckRequested := true }
      | some (.option opt), [] => .error (.usage (ascii opt.missing) false)
      | some (.option opt), value :: rest =>
          match opt.set o value with
          | .error m => .error m
          | .ok o => parseArgs rest o
      | none, _ => .error (.usage (ascii "unknown argument: " ++ arg ++ ascii "\n") true)

/-- The value of `--format`. -/
def DbMetadataFormat.ofText (text : Bytes) : Option DbMetadataFormat :=
  if text = ascii "table" then some .table
  else if text = ascii "json" then some .json
  else if text = ascii "ini" then some .ini
  else none

/-- What follows the loop. -/
def selectMode (o : Options) : Mode :=
  if o.checkDbRequested then
    match DbMetadataFormat.ofText o.checkDbFormat with
    | some format => .checkDb o.checkDbPath format
    | none =>
        .usage (ascii "unknown --format value: " ++ o.checkDbFormat ++
          ascii " (expected table, json, or ini)\n") false
  else if !o.healthCheckRequested ∧ (o.healthCheckSocket ≠ [] ∨ o.healthCheckPort ≠ 0) then
    .usage (ascii "--socket and --port only apply together with --health-check\n") false
  else if o.healthCheckRequested then
    if o.healthCheckSocket ≠ [] ∧ o.healthCheckPort ≠ 0 then
      .usage (ascii "--socket and --port are mutually exclusive\n") false
    else
      .healthCheck
        (if o.healthCheckSocket = [] then (Config.default 0).socketPath else o.healthCheckSocket)
        o.healthCheckPort
  else .daemon o.configPath o.configPathExplicit

/-- The mode of a command line, without the program's name. -/
def mode (args : List Bytes) : Mode :=
  match parseArgs args {} with
  | .error m => m
  | .ok o => selectMode o

/-! ### The health-check client -/

/-- How the calls of `check_health` end; a failure carries the text of `errno`. -/
structure Attempt where
  socket : Option Bytes
  connect : Option Bytes
  write : Option Bytes
  /-- What the single `read` returns, at most 63 bytes. -/
  read : Except Bytes Bytes

/-- `kRequest`. -/
def healthRequest : Bytes :=
  ascii "GET /health HTTP/1.1\r\nHost: localhost\r\nConnection: close\r\n\r\n"

/-- Give up with a text and the text of `errno`. -/
def orFail (failure : Option Bytes) (what : Bytes) : Except Bytes Unit :=
  match failure with
  | some errno => .error (what ++ errno)
  | none => .ok ()

/-- The connection part of `check_health`. -/
def connectHealth (socketPath : Bytes) (tcpPort : Int) (a : Attempt) : Except Bytes Unit := do
  orFail a.socket (ascii "socket() failed: ")
  if tcpPort ≠ 0 then
    orFail a.connect (ascii "connect to 127.0.0.1:" ++ dec tcpPort.toNat ++ ascii " failed: ")
  else if sunPathSize ≤ socketPath.length then
    .error (ascii "socket path too long: " ++ socketPath)
  else orFail a.connect (ascii "connect to " ++ socketPath ++ ascii " failed: ")

/-- The line `check_health` quotes: the text up to a NUL, up to the end of its first line. -/
def quotedLine (response : Bytes) : Bytes :=
  match cut crlf (cString response) with
  | some (line, _) => line
  | none => cString response

/-- What `check_health` makes of the bytes read. -/
def judgeResponse (response : Bytes) : Except Bytes Unit :=
  if response = [] then .error (ascii "connection closed with no response")
  else if (ascii "HTTP/1.1 200").isPrefixOf response then .ok ()
  else .error (ascii "unexpected response: " ++ quotedLine response)

/-- `check_health`: the error, or nothing. -/
def checkHealth (socketPath : Bytes) (tcpPort : Int) (a : Attempt) : Except Bytes Unit := do
  connectHealth socketPath tcpPort a
  orFail a.write (ascii "write failed: ")
  match a.read with
  | .error errno => .error (ascii "read failed: " ++ errno)
  | .ok response => judgeResponse response

/-- The exit status of `--health-check`, with what it prints. -/
def healthExit (socketPath : Bytes) (tcpPort : Int) (a : Attempt) : Nat × Bytes :=
  match checkHealth socketPath tcpPort a with
  | .ok () => (0, ascii "status=ok\n")
  | .error err => (1, ascii "status=fail: " ++ err ++ ascii "\n")

end Nshgeoip
