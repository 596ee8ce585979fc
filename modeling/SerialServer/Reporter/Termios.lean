import SerialServer.Core.Machine

/-!
# SerialServer.Reporter.Termios

Line settings of a serial device and the table of baud rates of `dataxfer.c`.

A `Termios` has the flags and speeds `com_port_handler` looks at. A `speed_t` is
one of the constants `B50`, `B75`, … of `termios.h`, which are small codes and not
rates; the values are those of the board's (PowerPC) headers.
-/

namespace SerialServer.Dataxfer

/-- `speed_t`: the code of a line speed. -/
abbrev Speed := Word

def B50 : Speed := 1
def B75 : Speed := 2
def B110 : Speed := 3
def B134 : Speed := 4
def B150 : Speed := 5
def B200 : Speed := 6
def B300 : Speed := 7
def B600 : Speed := 8
def B1200 : Speed := 9
def B1800 : Speed := 10
def B2400 : Speed := 11
def B4800 : Speed := 12
def B9600 : Speed := 13
def B19200 : Speed := 14
def B38400 : Speed := 15
def B57600 : Speed := 16
def B115200 : Speed := 17
def B230400 : Speed := 18

/-- The field `c_cflag & CSIZE`. -/
inductive CharSize
  | cs5
  | cs6
  | cs7
  | cs8
  deriving Repr, DecidableEq

/-- `struct termios`, as far as it is used. -/
structure Termios where
  ispeed : Speed
  ospeed : Speed
  csize : CharSize
  parenb : Bool
  parodd : Bool
  cstopb : Bool
  crtscts : Bool
  ixon : Bool
  ixoff : Bool
  deriving Repr, DecidableEq

/-- `struct baud_rates_s`. -/
structure BaudRate where
  realRate : Word
  val : Speed
  ciscoIosVal : Word
  deriving Repr, DecidableEq

/-- `baud_rates`. -/
def baudRates : List BaudRate :=
  [⟨50, B50, -1⟩, ⟨75, B75, -1⟩, ⟨110, B110, -1⟩, ⟨134, B134, -1⟩, ⟨150, B150, -1⟩,
    ⟨200, B200, -1⟩, ⟨300, B300, 3⟩, ⟨600, B600, 4⟩, ⟨1200, B1200, 5⟩, ⟨1800, B1800, -1⟩,
    ⟨2400, B2400, 6⟩, ⟨4800, B4800, 7⟩, ⟨9600, B9600, 8⟩, ⟨19200, B19200, 10⟩,
    ⟨38400, B38400, 12⟩, ⟨57600, B57600, 13⟩, ⟨115200, B115200, 14⟩, ⟨230400, B230400, 15⟩]

/-- What a client calls the entry: its rate, or its number when `cisco_ios_baud_rates` is set. -/
def BaudRate.name (cisco : Bool) (r : BaudRate) : Word :=
  if cisco then r.ciscoIosVal else r.realRate

/-- `get_baud_rate`: the speed code of the first entry a client's number names. -/
def getBaudRate (cisco : Bool) (rate : Word) : Option Speed :=
  (baudRates.find? fun r => rate = r.name cisco).map BaudRate.val

/-- `get_rate_from_baud_rate`: `*val` after the call. A code that is in no entry leaves
`*val` as it was. -/
def getRateFromBaudRate (cisco : Bool) (baudRate val : Word) : Word :=
  match baudRates.find? fun r => baudRate = r.val with
  | some r => if cisco then (if r.ciscoIosVal.slt 0 then 0 else r.ciscoIosVal) else r.realRate
  | none => val

end SerialServer.Dataxfer
