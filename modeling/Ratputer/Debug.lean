import Ratputer.Ssh
import Ratputer.MainLoop

/-!
# The USB console

`debug.rs`: the line editor over the bytes of the serial port and the parser of its commands. The output queue is left out: what
is echoed, and whether it finds room, changes nothing that is read.
-/

namespace Ratputer

def RX_LINE_LEN : Nat := 192
def TEXT_LEN : Nat := 96

/-- The argument of `TEXT`, in a buffer of fixed length. -/
structure DebugText where
  asStr : Str
  fits : (asBytes asStr).length ≤ TEXT_LEN
  deriving DecidableEq

inductive DebugWdt
  | status | on | off | freeze | stall
  deriving Repr, DecidableEq

/-- The line editor: the bytes of the line, and what the next byte may depend on. -/
structure DebugConsole where
  rxLine : List UInt8 := []
  rxOverflow : Bool := false
  /-- 0: ordinary input, 1: ESC received, 2: CSI sequence in progress. -/
  escapeState : Nat := 0
  /-- Suppress LF after a CR. -/
  lastWasCr : Bool := false
  deriving Repr, DecidableEq

namespace DebugConsole

/-- A command as the parser reads it. -/
inductive DebugCommand
  | ping | help | status
  | key (key : DebugKey)
  | text (text : DebugText)
  | wdt (action : DebugWdt)
  | clear | reboot
  | invalid (reason : String)
  deriving DecidableEq

/-! ## Commands -/

/-- The text before the first such character, and the text after it. -/
def splitOnce (at_ : Char) : Str → Option (Str × Str)
  | [] => none
  | c :: rest => if c = at_ then some ([], rest) else (splitOnce at_ rest).map fun p => (c :: p.1, p.2)

/-- The value under a word, whatever its case. -/
def lookup {α : Type} (table : List (String × α)) (word : Str) : Option α :=
  (table.find? fun p => eqIgnoreAsciiCase word p.1.toList).map (·.2)

def KEYS : List (String × DebugKey) :=
  [("up", .up), ("down", .down), ("left", .left), ("right", .right), ("enter", .enter), ("back", .back),
    ("backspace", .backspace), ("delete", .delete), ("tab", .tab), ("space", .space)]

def WDT_ACTIONS : List (String × DebugWdt) := [("on", .on), ("off", .off), ("freeze", .freeze), ("stall", .stall)]

/-- `isAsciiGraphic` of an octet, or a space. -/
def isPrintable (byte : UInt8) : Bool := 0x21 ≤ byte && byte ≤ 0x7e || byte = 0x20

def parseKey (argument : Option Str) : DebugCommand :=
  match argument.bind fun value => lookup KEYS (trim value) with
  | some key => .key key
  | none => .invalid "bad_key"

def parseText (argument : Option Str) : DebugCommand :=
  match argument with
  | none => .invalid "missing_text"
  | some argument =>
    if h : argument ≠ [] ∧ (asBytes argument).length ≤ TEXT_LEN ∧ (asBytes argument).all isPrintable = true then
      .text ⟨argument, h.2.1⟩
    else .invalid "text_must_be_1_96_printable_ascii"

def parseWdt (argument : Option Str) : DebugCommand :=
  match argument with
  | none => .wdt .status
  | some value =>
    match lookup WDT_ACTIONS (trim value) with
    | some action => .wdt action
    | none => .invalid "wdt_must_be_on_off_freeze_or_stall"

/-- A command by its name; the argument is what follows the first space. -/
def parseWords (name : Str) (argument : Option Str) : DebugCommand :=
  if eqIgnoreAsciiCase name "PING".toList then .ping
  else if eqIgnoreAsciiCase name "HELP".toList then .help
  else if eqIgnoreAsciiCase name "STATUS".toList then .status
  else if eqIgnoreAsciiCase name "CLEAR".toList then .clear
  else if eqIgnoreAsciiCase name "REBOOT".toList then .reboot
  else if eqIgnoreAsciiCase name "KEY".toList then parseKey argument
  else if eqIgnoreAsciiCase name "TEXT".toList then parseText argument
  else if eqIgnoreAsciiCase name "WDT".toList then parseWdt argument
  else .invalid "unknown_command"

/-- The command of a line; an empty one has none. -/
def parseCommand (line : List UInt8) : Option DebugCommand :=
  match Utf8.decode line with
  | none => some (.invalid "non_ascii_command")
  | some text =>
    let line := trim text
    if line = [] then none
    else
      match splitOnce ' ' line with
      | some (name, argument) => some (parseWords name (some argument))
      | none => some (parseWords line none)

/-! ## The line editor -/

variable (console : DebugConsole)

def finishLine : DebugConsole × Option DebugCommand :=
  ({ console with rxLine := [], rxOverflow := false, escapeState := 0 },
    if console.rxOverflow then some (.invalid "line_too_long") else parseCommand console.rxLine)

def handleByte (byte : UInt8) : DebugConsole :=
  if console.escapeState ≠ 0 then
    { console with
      escapeState :=
        if console.escapeState = 1 then if byte = 0x5b then 2 else 0
        else if console.escapeState = 2 then if 0x40 ≤ byte ∧ byte ≤ 0x7e then 0 else 2
        else 0 }
  else if byte = 0x1b then { console with escapeState := 1 }
  else if byte = 0x08 ∨ byte = 0x7f then { console with rxLine := console.rxLine.dropLast }
  else if byte = 0x15 then { console with rxLine := [], rxOverflow := false }
  else if 0x20 ≤ byte ∧ byte ≤ 0x7e then
    if console.rxLine.length < RX_LINE_LEN then { console with rxLine := console.rxLine ++ [byte] }
    else { console with rxOverflow := true }
  else console

/-- One byte of the port: a line ending may give a command. -/
def readByte (byte : UInt8) : DebugConsole × Option DebugCommand :=
  if byte = 0x0d then finishLine { console with lastWasCr := true }
  else if byte = 0x0a then
    if console.lastWasCr then ({ console with lastWasCr := false }, none) else console.finishLine
  else (handleByte { console with lastWasCr := false } byte, none)

/-- One poll: read the bytes that are there up to the first command, and leave the rest in the port. -/
def poll (console : DebugConsole) : List UInt8 → (DebugConsole × List UInt8) × Option DebugCommand
  | [] => ((console, []), none)
  | byte :: bytes =>
    match console.readByte byte with
    | (console, some command) => ((console, bytes), some command)
    | (console, none) => poll console bytes

/-- A poll after some bytes have arrived behind those that the last one left. -/
def pollArrived (s : DebugConsole × List UInt8) (arrived : List UInt8) : (DebugConsole × List UInt8) × Option DebugCommand :=
  s.1.poll (s.2 ++ arrived)

end DebugConsole

end Ratputer
