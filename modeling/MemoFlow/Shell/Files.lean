/-!
# Files that a shell finds

The files of an ordinary system as far as commands can tell them apart, and those that commands
make.

* `Shell.FileKind`, **`Made.kind?`**: what is found under a path;
* `Shell.resolve`: a path without links and without detours;
* `Shell.refusals`, **`Shell.isProgram`**: names of programs, with the codes by which they refuse
  options;
* **`Shell.Made`**: what commands have made; `Made.follow`: a path with its links followed;
* `Rights.withSign`, **`Rights.changed?`**: rights added, taken away or set, by digits or signs;
  `Rights.shown`: the rights of one group of users in letters.
-/

namespace MemoFlow.Shell

/-- What is found under a path. -/
inductive FileKind where
  /-- A folder. -/
  | folder
  /-- A file with contents. -/
  | regular
  /-- A file that can be run. -/
  | program
  /-- A device. -/
  | device
deriving DecidableEq, Repr

/-! ## Paths -/

/-- The parts of a path. -/
def parts (path : String) : List String :=
  ((path.toList.splitOnP (· = '/')).map String.ofList).filter fun p => p ≠ "" && p ≠ "."

/-- Parts of a path that are links to folders of the same name further down. -/
def links : List String := ["bin", "sbin", "lib", "lib64"]

/-- The parts of a path, after those in `done`, without links and steps back. -/
def walk : List String → List String → List String
  | done, [] => done
  | done, ".." :: r => walk done.dropLast r
  | [], p :: r => if links.contains p then walk ["usr", p] r else walk [p] r
  | done, p :: r => walk (done ++ [p]) r

/-- Parts as a path. -/
def joinParts (ps : List String) : String := ps.foldl (fun s p => s ++ "/" ++ p) ""

/-- A path without links and detours, from a folder; the empty string stands for the root. -/
def resolve (folder path : String) : String :=
  let start := if path.startsWith "/" then [] else walk [] (parts folder)
  joinParts (walk start (parts path))

/-- The last part of a path. -/
def baseName (path : String) : String := (parts path).getLast?.getD path

/-! ## Programs -/

/-- Programs by the code with which they refuse an option that they do not know. -/
def refusals : List (Nat × List String) :=
  [(0, ["bzless", "bzmore", "clear_console", "curl", "echo", "findmnt", "gcc-ranlib",
      "gcc-ranlib-13", "gcov-dump", "gcov-dump-13", "gzexe", "less", "lessfile", "lesspipe",
      "lzless", "lzmore", "man", "pager", "printf", "ranlib", "true", "uptime", "xzless", "xzmore",
      "zless"]),
    (1, ["addpart", "addr2line", "ar", "arch", "as", "b2sum", "base32", "base64", "basename",
      "basenc", "bunzip2", "bzcat", "bzcmp", "bzdiff", "bzexe", "bzip2", "bzip2recover", "c++filt",
      "c89", "c89-gcc", "c_rehash", "cat", "chattr", "chcon", "chgrp", "chmod", "choom", "chown",
      "chrt", "cksum", "clear", "comm", "cp", "csplit", "cut", "date", "dd", "delpart", "df",
      "dircolors", "dirname", "dmesg", "du", "dwp", "elfedit", "expand", "factor", "fakeroot",
      "fakeroot-sysv", "fakeroot-tcp", "fallocate", "false", "find", "fmt", "fold", "free",
      "gcc-ar", "gcc-ar-13", "gcc-nm", "gcc-nm-13", "gcov", "gcov-13", "gcov-tool", "gcov-tool-13",
      "gold", "gprof", "gprofng", "groups", "gunzip", "gzip", "hardlink", "head", "hostid", "i386",
      "id", "infocmp", "install", "ionice", "ipcmk", "ipcrm", "ipcs", "join", "kill", "last",
      "lastb", "lastlog", "ld", "ld.bfd", "ld.gold", "ldd", "lessecho", "lesskey", "link",
      "linux32", "linux64", "ln", "logger", "logname", "lsattr", "lsblk", "lscpu", "lsipc",
      "lslocks", "lslogins", "lsmem", "lsns", "lto-dump", "lto-dump-13", "lzcat", "lzma",
      "lzmainfo", "mcookie", "md5sum", "mesg", "mkdir", "mkfifo", "mknod", "mktemp", "more",
      "mountpoint", "mtrace", "mv", "namei", "nl", "nm", "nproc", "nsenter", "numfmt", "objcopy",
      "objdump", "od", "openssl", "partx", "paste", "pathchk", "perldoc", "pidof", "pinky", "pmap",
      "pr", "prlimit", "ps", "ptx", "pwd", "pwdx", "python3-config", "python3.12-config", "readelf",
      "readlink", "realpath", "renice", "resizepart", "rev", "rm", "rmdir", "rpcgen", "scp", "sed",
      "seq", "setarch", "setpriv", "setsid", "setterm", "sftp", "sha1sum", "sha224sum", "sha256sum",
      "sha384sum", "sha512sum", "shasum", "shred", "shuf", "size", "slabtop", "sleep", "split",
      "ssh-copy-id", "ssh-keyscan", "stat", "strings", "strip", "stty", "sum", "sync", "tabs",
      "tac", "tail", "taskset", "tee", "tempfile", "tic", "tload", "toe", "touch", "tr", "truncate",
      "tsort", "tzselect", "uclampset", "uname", "uncompress", "unexpand", "uniq", "unlink",
      "unlzma", "unshare", "unxz", "users", "utmpdump", "vmstat", "w", "wc", "wdctl", "whereis",
      "who", "whoami", "x86_64", "xargs", "xauth", "xz", "xzcat", "yes", "zcat", "zdump", "zforce",
      "zmore", "znew"]),
    (2, ["[", "awk", "bash", "bzegrep", "bzfgrep", "bzgrep", "chage", "cmp", "dash", "diff",
      "diff3", "dir", "dpkg", "egrep", "expiry", "expr", "faillog", "fgrep", "getconf", "getopt",
      "gmake", "gpasswd", "grep", "ls", "lzcmp", "lzdiff", "lzegrep", "lzfgrep", "lzgrep", "make",
      "mawk", "nawk", "patch", "pgrep", "pidwait", "pkill", "printenv", "python", "python3",
      "python3.12", "rbash", "rgrep", "sdiff", "sh", "sort", "ssh-add", "tar", "test", "tput",
      "tty", "vdir", "which", "xzcmp", "xzdiff", "xzegrep", "xzfgrep", "xzgrep", "zcmp", "zdiff",
      "zegrep", "zfgrep", "zgrep"]),
    (4, ["localedef"]),
    (25, ["perl"]),
    (64, ["flock", "gencat", "getent", "iconv", "locale", "pldd"]),
    (100, ["apt", "apt-cache", "apt-get"]),
    (125, ["chroot", "env", "nice", "nohup", "runcon", "stdbuf", "timeout"]),
    (128, ["git-shell", "git-upload-archive"]),
    (129, ["git", "git-receive-pack", "git-upload-pack", "scalar"]),
    (255, ["dnsdomainname", "domainname", "hostname", "nisdomainname", "slogin", "ssh",
      "ssh-keygen", "ypdomainname"])]

/-- Names of compilers: those of the language of kernels first. -/
def compilers : List String :=
  ["cc", "gcc", "gcc-13", "c99", "c99-gcc"]

/-- Names of compilers for a related language in which names are spelt differently. -/
def relatives : List String :=
  ["c++", "g++", "g++-13"]

/-- Names of programs that stop before the text is compiled. -/
def preprocessors : List String :=
  ["cpp", "cpp-13"]

/-- What stands before the names of tools for the machine at hand. -/
def machine : String := "x86_64-linux-gnu-"

/-- Tools that are there under a longer name as well. -/
def tools : List String :=
  ["addr2line", "ar", "as", "c++filt", "cpp", "cpp-13", "dwp", "elfedit", "g++", "g++-13",
    "gcc", "gcc-13", "gcc-ar", "gcc-ar-13", "gcc-nm", "gcc-nm-13", "gcc-ranlib",
    "gcc-ranlib-13", "gcov", "gcov-13", "gcov-dump", "gcov-dump-13", "gcov-tool",
    "gcov-tool-13", "gold", "gprof", "gprofng", "ld", "ld.bfd", "ld.gold", "lto-dump",
    "lto-dump-13", "nm", "objcopy", "objdump", "ranlib", "readelf", "size", "strings", "strip"]

/-- The name of a tool without the machine. -/
def shortName (name : String) : String :=
  let short := String.ofList (name.toList.drop machine.length)
  if name.startsWith machine && tools.contains short then short else name

/-- The code with which a program refuses an option. -/
def refusal? (name : String) : Option Nat :=
  (refusals.find? fun p => p.2.contains (shortName name)).map Prod.fst

/-- **Whether there is a program** of a name. -/
def isProgram (name : String) : Bool :=
  let short := shortName name
  (refusal? name).isSome || compilers.contains short || relatives.contains short ||
    preprocessors.contains short

/-! ## Files of the system -/

/-- Folders of the system. -/
def folders : List String :=
  ["", "/usr", "/usr/bin", "/usr/sbin", "/usr/lib", "/usr/lib64", "/usr/local", "/usr/local/bin",
    "/usr/local/sbin", "/usr/local/lib", "/usr/include", "/usr/share", "/usr/src", "/etc", "/tmp",
    "/dev", "/dev/shm", "/dev/pts", "/proc", "/proc/self", "/sys", "/root", "/home", "/var",
    "/var/tmp", "/var/log", "/var/lib", "/opt", "/mnt", "/media", "/run", "/srv", "/boot"]

/-- Files of the system with contents. -/
def regulars : List String :=
  ["/etc/passwd", "/etc/group", "/etc/hosts", "/etc/hostname", "/etc/fstab", "/etc/os-release",
    "/etc/resolv.conf", "/etc/shells", "/etc/profile", "/etc/issue", "/etc/services",
    "/etc/nsswitch.conf", "/etc/ld.so.conf", "/etc/shadow"]

/-- Devices. -/
def devices : List String :=
  ["/dev/null", "/dev/zero", "/dev/full", "/dev/random", "/dev/urandom", "/dev/tty"]

/-- What the system has under a resolved path. -/
def systemKind? (path : String) : Option FileKind :=
  if folders.contains path then some .folder
  else if regulars.contains path then some .regular
  else if devices.contains path then some .device
  else if path = "/usr/bin/" ++ baseName path && isProgram (baseName path) then some .program
  else none

/-- What commands have made since, by resolved paths. -/
structure Made where
  /-- Files, with the numbers of their contents. -/
  files : List (String × Nat) := []
  /-- Folders. -/
  folders : List String := []
  /-- Links to paths, with those paths as they were written. -/
  links : List (String × String) := []
  /-- The rights of files and folders, where they have been set. -/
  modes : List (String × Nat) := []

namespace Made

/-- A path with the first link in it followed, if there is one; `done` has none. -/
def followOne? (m : Made) (done : String) : List String → Option String
  | [] => none
  | p :: ps =>
    let here := done ++ "/" ++ p
    match m.links.lookup here with
    | some target => some (resolve (done ++ "/") target ++ joinParts ps)
    | none => followOne? m here ps

/-- A path with links in it followed, at most `n` of them. -/
def followFrom (m : Made) : Nat → String → String
  | 0, path => path
  | n + 1, path =>
    match followOne? m "" (parts path) with
    | some next => followFrom m n next
    | none => path

/-- A resolved path with the links in it followed. -/
def follow (m : Made) (path : String) : String :=
  if m.links.isEmpty then path else followFrom m 40 path

/-- **What is found under a path** whose links have been followed. -/
def kind? (m : Made) (path : String) : Option FileKind :=
  if m.folders.contains path then some .folder
  else if (m.files.lookup path).isSome then some .regular
  else systemKind? path

/-- The rights of what has been made under a path. -/
def mode (m : Made) (path : String) : Nat :=
  match m.modes.lookup path with
  | some n => n
  | none =>
    match m.kind? path with
    | some .folder | some .program => 493
    | some .regular => 420
    | _ => 438

/-- Whether a path lies below another one. -/
def isBelow (home path : String) : Bool := path.startsWith (home ++ "/")

/-- The paths of what has been made below a path, as they go on behind it, in order. -/
def below (m : Made) (home : String) : List String :=
  let all := m.files.map Prod.fst ++ m.folders ++ m.links.map Prod.fst
  let tails := (all.filter (isBelow home)).map fun p =>
    String.ofList (p.toList.drop (home.length + 1))
  tails.mergeSort fun a b => !decide (b < a)

/-- Nothing below some paths, nor under them. -/
def without (m : Made) (gone : List String) : Made :=
  let stays (p : String) : Bool := !gone.any fun g => p = g || isBelow g p
  { files := m.files.filter fun p => stays p.1
    folders := m.folders.filter stays
    links := m.links.filter fun p => stays p.1
    modes := m.modes.filter fun p => stays p.1 }

/-- What was found under a path is found under another one. -/
def moved (m : Made) (old new : String) : Made :=
  let go (p : String) : String :=
    if p = old then new
    else if isBelow old p then new ++ String.ofList (p.toList.drop old.length) else p
  let m := m.without [new]
  { files := m.files.map fun p => (go p.1, p.2)
    folders := m.folders.map go
    links := m.links.map fun p => (go p.1, p.2)
    modes := m.modes.map fun p => (go p.1, p.2) }

end Made

end MemoFlow.Shell

/-! ## Rights of files -/

namespace MemoFlow.Shell.Rights

/-- Rights after those in `perms` have been added, taken away or set for the users in `who`. -/
def withSign (mode : Nat) (who perms : List Char) (sign : Char) : Nat :=
  let all := who.isEmpty || who.contains 'a'
  let shifts := (if all || who.contains 'u' then [6] else []) ++
    (if all || who.contains 'g' then [3] else []) ++ (if all || who.contains 'o' then [0] else [])
  let rights := (if perms.contains 'r' then 4 else 0) + (if perms.contains 'w' then 2 else 0) +
    (if perms.contains 'x' then 1 else 0)
  shifts.foldl (fun m k =>
    let old := m / Nat.pow 2 k % 8
    let new := if sign = '=' then rights else if sign = '+' then old ||| rights
      else old &&& (7 - rights)
    m - old * Nat.pow 2 k + new * Nat.pow 2 k) mode

/-- Rights after changes that are written with signs. -/
def symbolic? (mode : Nat) (parts : List (List Char)) : Option Nat :=
  parts.foldl (fun m p =>
    let who := p.takeWhile fun c => "ugoa".contains c
    match m, p.drop who.length with
    | some m, sign :: perms =>
      if "=+-".contains sign && perms.all fun c => "rwxXst".contains c then
        some (withSign m who perms sign)
      else none
    | _, _ => none) (some mode)

/-- Digits below eight as a number. -/
def octal? (s : String) : Option Nat :=
  if !s.isEmpty && s.all fun c => decide ('0' ≤ c) && decide (c ≤ '7') then
    some (s.toList.foldl (fun n c => 8 * n + (c.toNat - 48)) 0)
  else none

/-- **Rights after a change.** -/
def changed? (mode : Nat) (s : String) : Option Nat :=
  match octal? s with
  | some n => if n < 4096 then some n else none
  | none => symbolic? mode (s.toList.splitOnP (· = ','))

/-- The rights of one group of users in letters, with a sign for those that are missing. -/
def shown (mode k : Nat) (missing : List Char) : String :=
  let r := mode / Nat.pow 2 k % 8
  String.ofList ((if 4 ≤ r then ['r'] else missing) ++ (if 2 ≤ r % 4 then ['w'] else missing) ++
    (if r % 2 = 1 then ['x'] else missing))

end MemoFlow.Shell.Rights
