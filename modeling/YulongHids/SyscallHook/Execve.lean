import YulongHids.Golang.Strings

/-!
# The exec hook

`monitor_execve_hook` (`syscall_hook/syscall_hook.c`) formats one message per exec event and
broadcasts it; `CapturePrecess` (in the cgo part of `agent/monitor/process_linux.go`) forwards it to
the agent as one datagram. The fields are separated by the byte 1. The last two copies of user memory
end with a blank, if they are not empty.
-/

namespace YulongHids.SyscallHook

open Golang

def PATH_MAX : ℕ := 4096

/-! ## The copies of user memory -/

/-- The loop that appends the strings from user memory with a blank behind each, to a buffer of
`size` bytes. Those without `keep` are passed over. -/
def catUser (keep : GoString → Bool) (size : ℕ) : GoString → List GoString → GoString
  | total, [] => total
  | total, userString :: rest =>
    if total.length + (userString.length + 1) > size then total
    else if keep userString then catUser keep size (total ++ userString ++ [32]) rest
    else catUser keep size total rest

/-- The size of the buffer: the strings with their terminators, and 16 bytes for each of them. -/
def userSize (strings : List GoString) : ℕ :=
  (strings.map fun s => s.length + 1).sum + 16 * strings.length

/-- `total_argc_ptr`: the arguments after the first. A buffer of no bytes is no buffer. -/
def totalArgc (argv : List GoString) : Option GoString :=
  if argv = [] then none else some (catUser (fun _ => true) (userSize argv) [] argv.tail)

/-- The variables that are captured. -/
def capturedVariable (per_envp : GoString) : Bool :=
  contains per_envp (str "PWD") || contains per_envp (str "LOGNAME") ||
    contains per_envp (str "USER")

/-- `total_envpc_ptr`. -/
def totalEnvpc (envp : List GoString) : Option GoString :=
  if envp = [] then none else some (catUser capturedVariable (userSize envp) [] envp)

/-! ## The message -/

/-- What the hook formats. The strings are C strings, the numbers are those of two processes. -/
structure ExecEvent where
  path : GoString
  total_argc : Option GoString
  tgid : ℕ
  parentComm : GoString
  parentTgid : ℕ
  total_envpc : Option GoString
  path_terminated : 0 ∉ path
  argc_terminated : ∀ s, total_argc = some s → 0 ∉ s
  comm_terminated : 0 ∉ parentComm
  envpc_terminated : ∀ s, total_envpc = some s → 0 ∉ s
  tgid_lt : tgid < 2 ^ 31
  parentTgid_lt : parentTgid < 2 ^ 31

/-- The text of a copy in the message. -/
def copyText (p : Option GoString) : GoString := p.getD (str "N/A")

def ExecEvent.args (e : ExecEvent) : GoString := copyText e.total_argc

def ExecEvent.env (e : ExecEvent) : GoString := copyText e.total_envpc

/-- The message up to the environment. -/
def ExecEvent.head (e : ExecEvent) : GoString :=
  e.path ++ 1 :: e.args ++ 1 :: itoa e.tgid ++ 1 :: e.parentComm ++ 1 :: itoa e.parentTgid

/-- The message as `snprintf` would write it into a buffer that is large enough. -/
def ExecEvent.message (e : ExecEvent) : GoString := e.head ++ 1 :: e.env

def ExecEvent.nlSendLen (e : ExecEvent) : ℕ :=
  min (e.path.length + e.parentComm.length + 128 + (e.total_envpc.getD []).length +
    (e.total_argc.getD []).length) (PATH_MAX + 2048)

/-- The payload: what `snprintf` writes into `nl_send_len` bytes, before its terminator. -/
def ExecEvent.payload (e : ExecEvent) : GoString := e.message.take (e.nlSendLen - 1)

/-- The datagram of `CapturePrecess`: the payload up to `strlen`. -/
def ExecEvent.datagram (e : ExecEvent) : GoString := e.payload.takeWhile (· ≠ 0)

end YulongHids.SyscallHook
