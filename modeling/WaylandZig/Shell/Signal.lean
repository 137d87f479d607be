import WaylandZig.Text.Numeral

/-! # Host shell: signals

The numbers and names of signals, and what is said of a process that one of them ended.
-/
namespace WaylandZig.Shell.Signal

/-- The signals with names of their own, from the first on. -/
def ordinary : List Bytes :=
  ["HUP", "INT", "QUIT", "ILL", "TRAP", "ABRT", "BUS", "FPE", "KILL", "USR1", "SEGV", "USR2", "PIPE",
    "ALRM", "TERM", "16", "CHLD", "CONT", "STOP", "TSTP", "TTIN", "TTOU", "URG", "XCPU", "XFSZ",
    "VTALRM", "PROF", "WINCH", "IO", "PWR", "SYS", "32", "33"].map Bytes.ofString

/-- The signals that are counted from the two ends of their range. -/
def counted : List Bytes :=
  let up := (List.range 15).map fun k => "RTMIN+" ++ Numeral.decimal (k + 1)
  let down := (List.range 14).map fun k => "RTMAX-" ++ Numeral.decimal (14 - k)
  Bytes.ofString "RTMIN" :: up ++ down ++ [Bytes.ofString "RTMAX"]

/-- The names of all signals. The first stands for the end of a script. -/
def names : List Bytes := Bytes.ofString "EXIT" :: ordinary ++ counted

def name (n : Nat) : Bytes := names[n]?.getD []

/-- The signal that digits or a name in any case stand for. -/
def ofText? (w : Bytes) : Option Nat :=
  match Numeral.nat? 10 w with
  | some n => if n < names.length then some n else none
  | none => names.findIdx? (Ascii.eqFold w)

/-- The signals that do not end a process. -/
def harmless : List Nat := [0, 17, 18, 23, 28]

/-- The signals that no trap can hold up. -/
def untrappable : List Nat := [9, 19]

/-- The signal that a number brings about which is too large for its place. -/
def arithmetic : Nat := 8

/-- What is said of a process that a signal ended. -/
def endText (n : Nat) : Bytes :=
  if 34 ≤ n then "Real-time signal " ++ Numeral.decimal (n - 34)
  else Bytes.ofString ((List.lookup n [(1, "Hangup"), (3, "Quit"), (4, "Illegal instruction"),
    (5, "Trace/breakpoint trap"), (6, "Aborted"), (7, "Bus error"), (8, "Floating point exception"),
    (9, "Killed"), (10, "User defined signal 1"), (11, "Segmentation fault"),
    (12, "User defined signal 2"), (14, "Alarm clock"), (15, "Terminated"), (16, "Stack fault"),
    (24, "CPU time limit exceeded"), (25, "File size limit exceeded"), (26, "Virtual timer expired"),
    (27, "Profiling timer expired"), (29, "I/O possible"), (30, "Power failure"),
    (31, "Bad system call")]).getD "")

end WaylandZig.Shell.Signal
