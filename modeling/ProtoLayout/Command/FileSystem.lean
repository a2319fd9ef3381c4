import ProtoLayout.Command.Directory

/-!
The file system around the working directory, which lies in `/tmp`, and how a path is
followed through it: name by name from the root or the working directory, every link
followed where it is met, at most 40 links in all.
-/

namespace ProtoLayout.Command

inductive Device where
  | null
  | full
  /-- Cannot be opened: the tool runs without a terminal. -/
  | terminal
  | input
  | output
  | errors
deriving DecidableEq, Repr

/-- A place a path can name, reached with every link on the way followed. -/
inductive Spot where
  | work (path : List String)
  | system (path : List String)
  | process (path : List String)
  /-- Inside the folder of the tool's thread, in the process's `task`. -/
  | thread (path : List String)
  | stream (d : Device)
  | program
  /-- A kernel object that a link of a process folder leads to, such as a namespace. -/
  | handle
deriving DecidableEq, Repr

/-- The root holds itself; a stream, the program and a kernel object hold nothing. -/
def Spot.up : Spot → Spot
  | .work [] => .system ["tmp"]
  | .work p => .work p.dropLast
  | .system p => .system p.dropLast
  | .process [] => .system ["proc"]
  | .process p => .process p.dropLast
  | .thread [] => .process ["task"]
  | .thread p => .thread p.dropLast
  | .stream d => .stream d
  | .program => .program
  | .handle => .handle

/-- Before a link standing there is followed. -/
def Spot.step (s : Spot) (name : String) : Spot :=
  if name == "." then s
  else if name == ".." then s.up
  else match s with
    | .work p => .work (p ++ [name])
    | .system p => .system (p ++ [name])
    | .process p => .process (p ++ [name])
    | .thread p => .thread (p ++ [name])
    | .stream d => .stream d
    | .program => .program
    | .handle => .handle

inductive Writing where
  | kept
  | refused (e : FileError)
  /-- Opens, but writing any text fails, as a kernel setting does with text that is not a value of
  it; writing nothing succeeds. -/
  | checked (e : FileError)
deriving Repr

inductive Entry where
  | file (content : Except FileError String) (writing : Writing)
  | binary
  | program
  | folder
  | sealed
  | device (d : Device)
  /-- The place it leads to and the links it costs, itself included. -/
  | link (target : Spot) (hops : Nat)
  /-- A link the tool may not follow, as those of a process with privileges the tool lacks. -/
  | guarded
  | absent
deriving Repr

def Entry.owned (content : String) : Entry := .file (.ok content) .kept

def Entry.readOnly (content : String) : Entry := .file (.ok content) (.refused .permissionDenied)

def Entry.setting (content : String) : Entry := .file (.ok content) (.checked .invalidArgument)

def systemFolders : List String :=
  ["boot", "dev", "etc", "home", "lost+found", "media", "mnt", "opt", "proc", "root", "run",
    "srv", "sys", "tmp", "usr", "var"]

def deepFolders : List (List String) :=
  [["usr", "bin"], ["usr", "etc"], ["usr", "games"], ["usr", "include"], ["usr", "lib"],
   ["usr", "lib64"], ["usr", "libexec"], ["usr", "local"], ["usr", "sbin"], ["usr", "share"],
   ["usr", "src"], ["usr", "lib", "x86_64-linux-gnu"], ["usr", "share", "doc"],
   ["usr", "share", "man"], ["usr", "local", "bin"], ["usr", "local", "etc"],
   ["usr", "local", "games"], ["usr", "local", "include"], ["usr", "local", "lib"],
   ["usr", "local", "sbin"], ["usr", "local", "share"], ["usr", "local", "src"],
   ["var", "backups"], ["var", "cache"], ["var", "lib"], ["var", "local"], ["var", "log"],
   ["var", "mail"], ["var", "opt"], ["var", "spool"], ["var", "tmp"], ["run", "lock"],
   ["dev", "cpu"], ["dev", "net"], ["dev", "pts"], ["dev", "shm"], ["sys", "block"],
   ["sys", "bus"], ["sys", "class"], ["sys", "dev"], ["sys", "devices"], ["sys", "firmware"],
   ["sys", "fs"], ["sys", "kernel"], ["sys", "module"], ["sys", "power"], ["proc", "sys"],
   ["proc", "sys", "kernel"], ["proc", "sys", "fs"], ["proc", "sys", "vm"],
   ["proc", "sys", "net"]]

def programs : List String :=
  ["bash", "cat", "cp", "dash", "echo", "env", "false", "find", "grep", "gzip", "head", "id",
    "ls", "mkdir", "mv", "perl", "python3.12", "rm", "sed", "sleep", "sort", "tail", "tar",
    "true", "uname", "xargs"]

/-- Known by the start of their text; the tool's user owns them. -/
def configFiles : List (String × String) :=
  [("passwd", "root:x:0:0:root:/root:/bin/bash\n"), ("group", "root:x:0:\n"),
   ("shadow", "root:*:20553:0:99999:7:::\n"), ("gshadow", "root:*::\n"),
   ("shells", "# /etc/shells: valid login shells\n"), ("issue", "Ubuntu 24.04 LTS \\n \\l\n"),
   ("issue.net", "Ubuntu 24.04 LTS\n"), ("debian_version", "trixie/sid\n"),
   ("lsb-release", "DISTRIB_ID=Ubuntu\n"), ("legal", "\nThe programs included\n"),
   ("fstab", "# UNCONFIGURED FSTAB FOR BASE SYSTEM\n"), ("environment", "PATH=\"/usr/bin\"\n"),
   ("profile", "# /etc/profile\n"), ("bash.bashrc", "# System-wide .bashrc file\n"),
   ("login.defs", "#\n"), ("nsswitch.conf", "# /etc/nsswitch.conf\n"),
   ("protocols", "# Internet (IP) protocols\n"), ("services", "# Network services\n"),
   ("host.conf", "# The \"order\" line\n"), ("networks", "# symbolic names\n"),
   ("ld.so.conf", "include /etc/ld.so.conf.d/*.conf\n"), ("inputrc", "# /etc/inputrc\n")]

/-- Known by the start of their text; all are read-only. -/
def kernelFiles : List (String × String) :=
  [("version", "Linux version\n"), ("cpuinfo", "processor\t: 0\n"), ("meminfo", "MemTotal:\n"),
   ("cmdline", "mitigations=auto console=ttyS0\n"),
   ("filesystems", "nodev\tsysfs\n"), ("stat", "cpu  0\n"), ("swaps", "Filename\t\t\t\tType\n"),
   ("devices", "Character devices:\n"), ("partitions", "major minor  #blocks  name\n")]

def streams : List (String × Device) := [("0", .input), ("1", .output), ("2", .errors)]

def namespaces : List String :=
  ["cgroup", "ipc", "mnt", "net", "pid", "pid_for_children", "time", "time_for_children",
    "user", "uts"]

def processFolders : List String := ["attr", "fd", "fdinfo", "map_files", "net", "ns", "task"]

def processFiles : List (String × Entry) :=
  [("status", .readOnly "Name:\tscriptlet\n"), ("comm", .owned "scriptlet\n"),
   ("cmdline", .readOnly "scriptlet\x00"),
   ("environ", .readOnly "PATH=/usr/local/bin:/usr/bin:/bin\x00"),
   ("stat", .readOnly "1 (scriptlet) R\n"), ("personality", .readOnly "00000000\n"),
   ("oom_score", .readOnly "666\n"), ("oom_score_adj", .setting "0\n"),
   ("oom_adj", .setting "0\n"), ("setgroups", .readOnly "allow\n"),
   ("coredump_filter", .setting "00000033\n"), ("timerslack_ns", .setting "50000\n"),
   ("loginuid", .setting "4294967295"), ("sessionid", .readOnly "4294967295"),
   ("autogroup", .setting "/autogroup-1 nice 0\n"),
   ("sched", .owned "scriptlet (1, #threads: 1)\n"),
   ("limits", .readOnly "Limit                     Soft Limit\n"),
   ("io", .readOnly "rchar: 0\n"), ("wchan", .readOnly "0"),
   ("clear_refs", .file (.error .permissionDenied) (.checked .invalidArgument)),
   ("mem", .file (.error .ioError) (.checked .ioError))]

def processEntry : List String → Entry
  | [] => .folder
  | [n] =>
    if n ∈ processFolders then .folder
    else if n == "cwd" then .link (.work []) 1
    else if n == "root" then .link (.system []) 1
    else if n == "exe" then .link .program 1
    else (processFiles.lookup n).getD .absent
  | ["fd", n] => ((streams.lookup n).map fun d => .link (.stream d) 1).getD .absent
  | ["fdinfo", n] => if (streams.lookup n).isSome then .readOnly "pos:\t0\n" else .absent
  | ["ns", n] => if n ∈ namespaces then .link .handle 1 else .absent
  | ["attr", "current"] => .file (.error .invalidArgument) (.checked .invalidArgument)
  | ["net", "dev"] => .readOnly "Inter-|   Receive\n"
  | _ => .absent

def processOnly : List String :=
  ["autogroup", "coredump_filter", "map_files", "mountstats", "task", "timens_offsets", "timers",
    "timerslack_ns"]

/-- The same as in the process folder, but for `processOnly` and an empty list of children. -/
def threadView (inProcess : List String → Entry) : List String → Entry
  | [] => inProcess []
  | [n] => if n ∈ processOnly then .absent else if n == "children" then .readOnly "" else inProcess [n]
  | n :: rest => if n ∈ processOnly then .absent else inProcess (n :: rest)

def threadEntry : List String → Entry := threadView processEntry

def firstProcessFiles : List (String × Entry) :=
  [("status", .readOnly "Name:\tinit\n"), ("comm", .setting "init\n"),
   ("cmdline", .readOnly "/sbin/init\x00"),
   ("environ", .file (.error .permissionDenied) (.refused .permissionDenied)),
   ("stat", .readOnly "1 (init) S 0\n"),
   ("personality", .file (.error .notPermitted) (.refused .permissionDenied)),
   ("oom_score", .readOnly "0\n"), ("oom_score_adj", .setting "0\n"),
   ("oom_adj", .setting "0\n"), ("setgroups", .readOnly "allow\n"),
   ("coredump_filter", .setting "00000033\n"),
   ("timerslack_ns", .file (.error .notPermitted) (.checked .invalidArgument)),
   ("loginuid", .file (.ok "4294967295") (.checked .notPermitted)),
   ("sessionid", .readOnly "4294967295"), ("autogroup", .setting ""),
   ("sched", .owned "init (1, #threads: 1)\n"),
   ("limits", .readOnly "Limit                     Soft Limit\n"),
   ("io", .file (.error .permissionDenied) (.refused .permissionDenied)),
   ("wchan", .readOnly "0"),
   ("clear_refs", .file (.error .permissionDenied) (.checked .invalidArgument)),
   ("mem", .file (.error .permissionDenied) (.refused .permissionDenied))]

/-- The tool may read most of its files, but follows none of its links and cannot open `fdinfo`. -/
def firstProcessOwn : List String → Entry
  | [] => .folder
  | [n] =>
    if n == "fdinfo" then .sealed
    else if n ∈ processFolders then .folder
    else if n == "cwd" || n == "root" || n == "exe" then .guarded
    else (firstProcessFiles.lookup n).getD .absent
  | ["fd", n] => if (streams.lookup n).isSome then .guarded else .absent
  | ["ns", n] => if n ∈ namespaces then .guarded else .absent
  | ["attr", "current"] => .file (.error .invalidArgument) (.checked .notPermitted)
  | ["net", "dev"] => .readOnly "Inter-|   Receive\n"
  | _ => .absent

/-- Its only thread is numbered as the process. -/
def firstProcessEntry : List String → Entry
  | "task" :: "1" :: rest => threadView firstProcessOwn rest
  | p => firstProcessOwn p

def deepFolder (p : List String) : Entry := if p ∈ deepFolders then .folder else .absent

def systemEntry : List String → Entry
  | [] => .folder
  | ["bin"] => .link (.system ["usr", "bin"]) 1
  | ["sbin"] => .link (.system ["usr", "sbin"]) 1
  | ["lib"] => .link (.system ["usr", "lib"]) 1
  | ["lib64"] => .link (.system ["usr", "lib64"]) 1
  | [n] => if n ∈ systemFolders then .folder else .absent
  | ["usr", "bin", "sh"] => .link (.system ["usr", "bin", "dash"]) 1
  | ["usr", "bin", "python3"] => .link (.system ["usr", "bin", "python3.12"]) 1
  | ["usr", "bin", n] => if n ∈ programs then .binary else .absent
  | ["usr", "lib", "os-release"] => .owned "PRETTY_NAME=\"Ubuntu 24.04 LTS\"\n"
  | ["etc", "os-release"] => .link (.system ["usr", "lib", "os-release"]) 1
  | ["etc", n] => ((configFiles.lookup n).map Entry.owned).getD .absent
  | ["var", "run"] => .link (.system ["run"]) 1
  | ["var", "lock"] => .link (.system ["run", "lock"]) 1
  | ["dev", "null"] | ["dev", "zero"] | ["dev", "random"] | ["dev", "urandom"] => .device .null
  | ["dev", "full"] => .device .full
  | ["dev", "tty"] => .device .terminal
  | ["dev", "fd"] => .link (.process ["fd"]) 2
  | ["dev", "stdin"] => .link (.stream .input) 3
  | ["dev", "stdout"] => .link (.stream .output) 3
  | ["dev", "stderr"] => .link (.stream .errors) 3
  | ["proc", "self"] => .link (.process []) 1
  | ["proc", "thread-self"] => .link (.thread []) 1
  | ["proc", "net"] => .link (.process ["net"]) 2
  | "proc" :: "1" :: rest => firstProcessEntry rest
  | ["proc", "sys", "kernel", "ostype"] => .readOnly "Linux\n"
  | ["proc", n] => ((kernelFiles.lookup n).map Entry.readOnly).getD (deepFolder ["proc", n])
  | p => deepFolder p

def Directory.entry (d : Directory) : Spot → Entry
  | .work p =>
    match d.file? p with
    | some c => .owned c
    | none => if d.isFolder p then .folder else .absent
  | .system p => systemEntry p
  | .process p => processEntry p
  | .thread p => threadEntry p
  | .stream dev => .device dev
  | .program => .program
  | .handle => .file (.error .invalidArgument) (.refused .notPermitted)

def maxLinks : Nat := 40

def maxName : Nat := 255

def maxPath : Nat := 4096

/-- The folders of `/proc` and `/sys` only look their own names up. -/
def Spot.checksNames : Spot → Bool
  | .process _ | .thread _ | .system ("proc" :: _) | .system ("sys" :: _) => false
  | _ => true

/-- The folder `/proc` knows only its own names, and `/sys` and `/dev/pts` make no files. -/
def Spot.creation : Spot → Option FileError
  | .process _ | .thread _ | .system ("proc" :: _) => some .notFound
  | .system ("sys" :: _) | .system ["dev", "pts", _] => some .permissionDenied
  | _ => none

def Directory.land (d : Directory) (links : Nat) (s : Spot) : Except FileError (Nat × Spot) :=
  match d.entry s with
  | .link t hops => if links + hops ≤ maxLinks then .ok (links + hops, t) else .error .tooManyLinks
  | .guarded => .error (if links < maxLinks then .permissionDenied else .tooManyLinks)
  | _ => .ok (links, s)

def Directory.follow (d : Directory) : Nat → Spot → List String → Except FileError Spot
  | _, s, [] => .ok s
  | links, s, name :: rest =>
    match d.entry s with
    | .folder =>
      if s.checksNames && name.utf8ByteSize > maxName then .error .nameTooLong
      else match d.land links (s.step name) with
        | .ok (links, s) => d.follow links s rest
        | .error e => .error e
    | .sealed => .error .permissionDenied
    | .absent => .error .notFound
    | _ => .error .notDirectory

def pathNames (text : String) : Except FileError (Spot × List String) :=
  if text.utf8ByteSize ≥ maxPath then .error .nameTooLong
  else if text.isEmpty then .error .notFound
  else
    let start := if text.startsWith "/" then Spot.system [] else .work []
    .ok (start, (text.splitOn "/").filter (· != ""))

def Directory.locate (d : Directory) (text : String) : Except FileError Spot := do
  let (start, names) ← pathNames text
  d.follow 0 start names

def Entry.text (stdin : String) : Entry → Except FileError String
  | .file c _ => c
  | .binary | .program => .error .notText
  | .device .input => .ok stdin
  | .device .terminal => .error .noDevice
  | .device _ => .ok ""
  | .folder => .error .isDirectory
  | .sealed => .error .permissionDenied
  | .link _ _ | .guarded | .absent => .error .notFound

def Directory.read (d : Directory) (stdin : String) (text : String) :
    Except FileError String := do
  match d.entry (← d.locate text) with
  | .folder => .error .isDirectory
  | .sealed => .error .permissionDenied
  | .absent | .link _ _ | .guarded => .error .notFound
  | e => if text.endsWith "/" then .error .notDirectory else e.text stdin

inductive Sink where
  | directory (d : Directory)
  | output
  | errors
  | nowhere

/-- Creates or replaces the file at `text`. -/
def Directory.write (d : Directory) (text : String) (content : String) :
    Except FileError Sink := do
  let (start, names) ← pathNames text
  if text.endsWith "/" then
    match d.entry (← d.follow 0 start names.dropLast) with
    | .folder => .error .isDirectory
    | .sealed => .error .permissionDenied
    | .absent => .error .notFound
    | _ => .error .notDirectory
  else
    let s ← d.follow 0 start names
    match d.entry s, s with
    | .folder, _ | .sealed, _ => .error .isDirectory
    | .device .full, _ => .error .noSpace
    | .device .terminal, _ => .error .noDevice
    | .device .output, _ => .ok .output
    | .device .errors, _ => .ok .errors
    | .device _, _ => .ok .nowhere
    | .file _ (.refused e), _ => .error e
    | .file _ (.checked e), _ => if content.isEmpty then .ok .nowhere else .error e
    | .program, _ => .error .textBusy
    | _, .work p => .ok (.directory (d.put p content))
    | .absent, s => match s.creation with
      | some e => .error e
      | none => .ok .nowhere
    | _, _ => .ok .nowhere

end ProtoLayout.Command
