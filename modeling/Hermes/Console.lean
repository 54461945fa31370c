import Hermes.Library.Pattern

/- The LUKS console of a disposable machine (`vm/hermes-luks-console.py`): it reads what
   the guest writes and types the passphrase of the fixture when it sees the prompt for it.

   One `Turn` is one round of the loop of `run_console`: what `select` and `read` gave,
   and how the process of `virsh` fared. Beside the variables of the loop a state holds
   everything that was read, and how much of it had been read at each submission. -/
namespace Hermes.Console
open Pattern

abbrev Bytes := List UInt8

/-- The bytes of an ASCII literal. -/
def bytes (s : String) : Bytes := s.toList.map (fun c => UInt8.ofNat c.toNat)

/-! ## The patterns -/

def bufferLimit : Nat := 4096

def isBlank (b : UInt8) : Bool := b = 32 || b = 9

/-- `\s` -/
def isSpace (b : UInt8) : Bool := b = 32 || (9 ≤ b && b ≤ 13)

def isDigit (b : UInt8) : Bool := 48 ≤ b && b ≤ 57

def isAlnum (b : UInt8) : Bool := isDigit b || (65 ≤ b && b ≤ 90) || (97 ≤ b && b ≤ 122)

def isHex (b : UInt8) : Bool := isDigit b || (65 ≤ b && b ≤ 70) || (97 ≤ b && b ≤ 102)

/-- `[^\r\n:]` -/
def isNamePart (b : UInt8) : Bool := b ≠ 13 && b ≠ 10 && b ≠ 58

def verifiedPromptLine : Re UInt8 :=
  .seq (.alt (.lit (bytes "Please enter passphrase for disk ")) (.lit (bytes "Enter passphrase for disk ")))
    (.seq (.many isNamePart) (.seq (.cls (fun b => !isSpace b && b ≠ 58))
      (.seq (.many isBlank) (.lit (bytes ":")))))

def utf8Ellipsis : Bytes := [0xe2, 0x80, 0xa6]

def bootBoundaryLine : Re UInt8 :=
  .seq (.lit (bytes "Starting")) (.seq (.some isBlank) (.seq (.lit (bytes "systemd-cryptsetup@luks"))
    (.alt (.seq (.lit (bytes "\\x2d")) (.cls isAlnum))
      (.alt (.seq (.lit (bytes "-")) (.cls isAlnum))
        (.seq (.lit (bytes "\\x" ++ utf8Ellipsis)) (.cls isHex))))))

def rebootMarkerLine : Re UInt8 :=
  .alt (.seq (.lit (bytes "Reached target reboot.target")) (.opt (.lit (bytes " - System Reboot."))))
    (.alt (.seq (.lit (bytes "systemd-shutdown[")) (.seq (.some isDigit) (.lit (bytes "]: Rebooting."))))
      (.lit (bytes "reboot: Restarting system")))

def connectedBanner : Bytes := bytes "Connected to domain "

/-- An escape, `[`, parameter bytes, intermediate bytes and a final one. -/
def ansiEscape : Re UInt8 :=
  .seq (.lit [0x1b, 91]) (.seq (.many (fun b => 0x30 ≤ b && b ≤ 0x3f))
    (.seq (.many (fun b => 0x20 ≤ b && b ≤ 0x2f)) (.cls (fun b => 0x40 ≤ b && b ≤ 0x7e))))

/-- `ANSI_ESCAPE.sub(b"", text)`, over at most `n` bytes. -/
def dropEscapes : Nat → Bytes → Bytes
  | 0, s => s
  | _ + 1, [] => []
  | n + 1, b :: s =>
    match matchAt ansiEscape (b :: s) with
    | some rest => dropEscapes n rest
    | none => b :: dropEscapes n s

def normalizedConsoleOutput (output : Bytes) : Bytes := dropEscapes output.length output

def promptIsVerified (output : Bytes) : Bool :=
  search verifiedPromptLine (normalizedConsoleOutput output)

/-- What `latest_boot_boundary` leaves of the output: `normalized[boundary_end:]`. -/
def latestBootBoundary (output : Bytes) : Option Bytes :=
  let normalized := normalizedConsoleOutput output
  lastRest bootBoundaryLine (normalized.length + 1) normalized

/-- What `latest_reboot_marker` leaves of the output: `normalized[reboot_end:]`. -/
def latestRebootMarker (output : Bytes) : Option Bytes :=
  let normalized := normalizedConsoleOutput output
  lastRest rebootMarkerLine (normalized.length + 1) normalized

def consoleIsAttached (output : Bytes) : Bool :=
  search (.lit connectedBanner) (normalizedConsoleOutput output)

/-- `console_exit_detail`: the needles are ASCII, so decoding does not hide or make one. -/
def consoleExitDetail (output : Bytes) : String :=
  let has (s : String) : Bool := search (.lit (bytes s)) output
  if has "Safe console handling requested but not supported" then "safe-console-unsupported"
  else if has "console is already active" then "console-already-active"
  else if has "console connection refused" then "console-connection-refused"
  else if has "Cannot run interactive console without a controlling TTY" then "controlling-tty-missing"
  else if has "Requested operation is not valid" then "requested-operation-invalid"
  else if has "error:" then "virsh-error"
  else "console-process-exited"

/-! ## The loop -/

/-- One round of the loop. -/
structure Turn where
  /-- the bytes that were read; none of them at the end of the terminal -/
  chunk : Option Bytes := none
  /-- an operation of this round raises before the passphrase is typed -/
  raises : Bool := false
  /-- typing the passphrase or noting it raises -/
  submitRaises : Bool := false
  /-- `child_exit_code` -/
  exitCode : Option Int := none

structure State where
  output : Bytes := []
  attached : Bool := false
  promptArmed : Bool
  rebootObserved : Bool := false
  unlockCount : Nat := 0
  /-- the lines of the event log, without their time stamps -/
  events : List String := []
  /-- everything that was read -/
  read : Bytes := []
  /-- how many bytes had been read at each submission -/
  submitted : List Nat := []

/-- How `run_console` ends. -/
inductive End where
  | returned (code : Int)
  | raised
  deriving DecidableEq, Repr

def State.note (s : State) (event : String) : State := { s with events := s.events ++ [event] }

/-- `s[-n:]` -/
def keepLast (n : Nat) (s : Bytes) : Bytes := s.drop (s.length - n)

def State.buffer (s : State) (output read : Bytes) : State := { s with output := output, read := read }

/-- `(console_output + chunk)[-BUFFER_LIMIT:]` -/
def State.extend (s : State) (chunk : Bytes) : State :=
  s.buffer (keepLast bufferLimit (s.output ++ chunk)) (s.read ++ chunk)

def State.attach (s : State) : State :=
  if !s.attached && consoleIsAttached s.output then
    { s with attached := true }.note "luks-console-attached input-submitted=0"
  else s

def State.observeReboot (watch : Bool) (s : State) : State :=
  if watch && !s.promptArmed && !s.rebootObserved then
    match latestRebootMarker s.output with
    | some rest =>
      { s with rebootObserved := true, output := rest }.note "luks-reboot-observed input-submitted=0"
    | none => s
  else s

def State.observeBoundary (watch : Bool) (s : State) : State :=
  if !s.promptArmed && (!watch || s.rebootObserved) then
    match latestBootBoundary s.output with
    | some rest =>
      { s with promptArmed := true, rebootObserved := false, output := rest }.note
        "luks-boot-boundary-observed input-submitted=0"
    | none => s
  else s

/-- A chunk that is not empty, up to the question whether to submit. -/
def State.receive (watch : Bool) (s : State) (chunk : Bytes) : State :=
  (((s.extend chunk).attach).observeReboot watch).observeBoundary watch

/-- `submit_fixture`, and what follows it. -/
def State.submit (s : State) : State :=
  { s.note "luks-prompt-verified input-submitted=1" with
    unlockCount := s.unlockCount + 1, promptArmed := false, submitted := s.submitted ++ [s.read.length] }

/-- The end of a round in which nothing was submitted. -/
def State.checkChild (s : State) (t : Turn) : State × Option End :=
  match t.exitCode with
  | some code =>
    (s.note ("luks-console-exited input-submitted=0 detail=" ++ consoleExitDetail s.output ++
      " exit-code=" ++ toString code), some (.returned 1))
  | none => (s, none)

/-- A round in which the terminal gave something. -/
def State.handle (watch : Bool) (s : State) (chunk : Bytes) (t : Turn) : State × Option End :=
  let s := s.receive watch chunk
  if t.raises then (s, some .raised)
  else if s.promptArmed && promptIsVerified s.output then
    if t.submitRaises then (s.submit, some .raised)
    else if !watch then (s.submit, some (.returned 0))
    else ({ s.submit with output := [] }, none)
  else s.checkChild t

/-- One round of the loop. -/
def State.turn (watch : Bool) (s : State) (t : Turn) : State × Option End :=
  match t.chunk with
  | some (b :: chunk) => s.handle watch (b :: chunk) t
  | _ => if t.raises then (s, some .raised) else s.checkChild t

/-- `run_console`: the rounds until the deadline, or until one ends it. -/
def runFrom (watch stopRequested : Bool) (s : State) : List Turn → State × End
  | [] =>
    (s.note (if watch then "luks-console-watch-ended input-submitted=0 unlocks=" ++
        toString s.unlockCount ++ " detail=" ++ (if stopRequested then "stopped" else "timeout")
      else "luks-prompt-not-observed input-submitted=0"), .returned 1)
  | t :: turns =>
    match s.turn watch t with
    | (s, some result) => (s, result)
    | (s, none) => runFrom watch stopRequested s turns

def runConsole (watch stopRequested : Bool) (turns : List Turn) : State × End :=
  runFrom watch stopRequested { promptArmed := !watch } turns

/-- The bytes of the guest. -/
def stream (turns : List Turn) : Bytes := turns.flatMap (fun t => t.chunk.getD [])

end Hermes.Console
