import StrayTouch.Disk.Basic

/-!
What usually stands on a disk: the folders of the system, some files and devices, and a few links.
The folder that is worked in is one of those for files that are soon thrown away; nobody knows its
name.
-/
namespace StrayTouch.Disk

def fromRoot (path : String) : List String :=
  settledSteps (steps path)

def usualFolders : List String :=
  ["/boot", "/dev/pts", "/dev/shm", "/etc/ssl", "/home", "/media", "/mnt", "/opt", "/root",
   "/run/lock", "/srv", "/sys", "/tmp", "/usr/bin", "/usr/games", "/usr/include", "/usr/lib",
   "/usr/lib64", "/usr/libexec", "/usr/local/bin", "/usr/local/etc", "/usr/local/games",
   "/usr/local/include", "/usr/local/lib", "/usr/local/sbin", "/usr/local/share",
   "/usr/local/src", "/usr/sbin", "/usr/share", "/usr/src", "/var/backups", "/var/cache",
   "/var/lib", "/var/local", "/var/log", "/var/mail", "/var/opt", "/var/spool", "/var/tmp"]

def usualDevices : List (String × Device) :=
  [("/dev/null", .null), ("/dev/zero", .null), ("/dev/random", .null), ("/dev/urandom", .null),
   ("/dev/stdin", .null), ("/dev/stdout", .null), ("/dev/stderr", .null), ("/dev/full", .full),
   ("/dev/tty", .terminal)]

def usualFiles : List (String × String) :=
  [("/etc/hostname", "localhost\n"), ("/etc/passwd", "root:x:0:0:root:/root:/bin/bash\n")]

/-- The folder that is worked in. No path can spell its name. -/
def workingFolder : List String := ["tmp", "/"]

def usualLinks : List (String × List String) :=
  [("/bin", ["usr", "bin"]), ("/lib", ["usr", "lib"]), ("/lib64", ["usr", "lib64"]),
   ("/sbin", ["usr", "sbin"]), ("/var/lock", ["run", "lock"]), ("/var/run", ["run"]),
   ("/proc/self/cwd", workingFolder), ("/proc/self/root", [])]

def usualEntries : List (List String × Entry) :=
  usualFolders.map (fun path => (fromRoot path, .folder))
    ++ usualFiles.map (fun e => (fromRoot e.1, .file e.2))
    ++ usualDevices.map (fun e => (fromRoot e.1, .device e.2))
    ++ usualLinks.map (fun e => (fromRoot e.1, .link e.2))
    ++ [(["proc"], .sealed), (["proc", "self"], .sealed), (workingFolder, .folder)]

def ofFiles (files : List (String × String)) : Disk :=
  ⟨workingFolder,
    usualEntries ++ files.map fun f => (workingFolder ++ settledSteps (steps f.1), .file f.2)⟩

end StrayTouch.Disk
