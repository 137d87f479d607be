import WaylandZig.Shell.Expansion

/-! # Host shell: redirections

Opening of what redirections name. They are opened in their order, and the first that cannot be opened
stops its command.
-/
namespace WaylandZig.Shell

/-- What the language says of an error: a missing file or directory has a wording of its own. -/
def openingReason (missing : Bytes) : Errno → Bytes
  | .notFound => missing
  | .notDirectory => missing
  | e => Program.reason e

/-- The stream that a file under `/dev` stands for. -/
def deviceStream? (path : Bytes) : Option Nat :=
  List.lookup path [("/dev/stdin", 0), ("/dev/stdout", 1), ("/dev/stderr", 2), ("/dev/fd/0", 0),
    ("/dev/fd/1", 1), ("/dev/fd/2", 2)]

def openForReading (s : State) (stream : Nat) (path : Bytes) : Except Bytes State :=
  match s.files.findReadable path with
  | .ok (l, _) => .ok (s.openInput stream (.file l 0))
  | .error e => .error ("cannot open " ++ path ++ ": " ++ openingReason "No such file" e)

/-- What the language says of a file that cannot be written. -/
def uncreated (path : Bytes) (e : Errno) : Bytes :=
  "cannot create " ++ path ++ ": " ++ openingReason "Directory nonexistent" e

/-- Opens a file for writing, at its end or in place of its content. Some scripts ask that no file is
replaced. -/
def openForWriting (s : State) (stream : Nat) (append keep : Bool) (path : Bytes) :
    Except Bytes State :=
  let failed := fun (e : Errno) => .error (uncreated path e)
  match s.files.locate path with
  | .error e => failed e
  | .ok l =>
    let opened := fun (mode : Nat) (content : Bytes) =>
      ({ s with files := s.files.put l (.file mode content) } : State).withChannel stream (.file l)
    match s.files.node? l with
    | some .directory => failed .isDirectory
    | some (.file mode old) =>
      if keep then failed .exists_
      else if !(FileNode.file mode old).mayWrite then failed .permissionDenied
      else .ok (opened mode (if append then old else []))
    | none => .ok (opened (0o666 &&& (0o777 - s.mask)) [])

/-- Opens a file for reading and writing. A new one is empty. -/
def openForBoth (s : State) (stream : Nat) (path : Bytes) : Except Bytes State :=
  match s.files.find path with
  | .ok (l, .file mode content) =>
    let node := FileNode.file mode content
    if node.mayRead && node.mayWrite then .ok (s.openInput stream (.file l 0))
    else .error (uncreated path .permissionDenied)
  | .ok (_, .directory) => .error (uncreated path .isDirectory)
  | .error _ =>
    (openForWriting s stream false false path).map fun made =>
      match made.channel? stream with
      | some (.file l) => made.openInput stream (.file l 0)
      | _ => made

/-- Makes a stream lead where another one does. What names no stream is no redirection at all, which
ends the script. -/
def duplicate (s : State) (stream : Nat) (target : Bytes) : Except Bytes State :=
  match target with
  | [b] =>
    if b = Ascii.dash then .ok (s.withoutChannel stream)
    else if !Ascii.isDigit b then .ok (s.abort "Syntax error: Bad fd number")
    else match s.channel? (b.toNat - 0x30) with
      | some c => .ok (s.withChannel stream c)
      | none => .error (target ++ ": Bad file descriptor")
  | _ => .ok (s.abort "Syntax error: Bad fd number")

def openPath (s : State) (stream : Nat) (kind : RedirectKind) (path : Bytes) : Except Bytes State :=
  if path = "/dev/null" then .ok (s.withChannel stream .nowhere)
  else match (deviceStream? path).bind s.channel?, kind with
    | some c, _ => .ok (s.withChannel stream c)
    | none, .write => openForWriting s stream false (s.hasOption 0x43) path
    | none, .replace => openForWriting s stream false false path
    | none, .append => openForWriting s stream true false path
    | none, .readWrite => openForBoth s stream path
    | none, _ => openForReading s stream path

variable (run : Command → State → State)

/-- Opens what one redirection names. -/
def redirect (r : Redirect) (s : State) : Except Bytes State × State :=
  match r with
  | .mk stream kind target =>
    if kind = .here then
      let (ms, s) := marks run false target s
      (.ok (s.openInput stream (.text (s.join ms))), s)
    else
      let (path, s) := expandText run target s
      if s.jump?.isSome then (.ok s, s)
      else if kind = .duplicate then (duplicate s stream path, s)
      else (openPath s stream kind path, s)

/-- Whether a redirection closes the stream that complaints go to before it fails. -/
def losesComplaint : Redirect → Bool
  | .mk stream kind _ => stream == 2 && kind == .duplicate

/-- Opens what redirections name. Without success the state is the one that complains. -/
def redirectAll : List Redirect → State → Except State State
  | [], s => .ok s
  | r :: rest, s =>
    match redirect run r s with
    | (.error text, s) =>
      .error (if losesComplaint r then { s with status := 2 } else s.complain text 2)
    | (.ok opened, _) => if opened.jump?.isSome then .error opened else redirectAll rest opened

/-- The streams of a state as they are in another one. -/
def State.restoreChannels (s before : State) : State := { s with channels := before.channels }

/-- Runs with redirections, which end with it. -/
def redirected (rs : List Redirect) (action : State → State) (s : State) : State :=
  match redirectAll run rs s with
  | .error s' => s'.restoreChannels s
  | .ok opened => (action opened).restoreChannels s

end WaylandZig.Shell
