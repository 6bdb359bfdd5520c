import YulongHids.Golang.Strings

/-!
# Accounts on Linux

`GetUser` (`agent/collect/user_linux.go`) lists the accounts of the passwd file, `getFileUser`
(`agent/monitor/file_linux.go`) looks up the owner of a file in it. Both cut the list of lines two
before its end.
-/

namespace YulongHids.Agent

open Golang

/-- A record of the type `userlist`. -/
structure UserRecord where
  name : GoString
  description : GoString
  deriving DecidableEq

/-- The loop of `GetUser`, `none` if a line has no second part. -/
def userLoop : List GoString → Option (List UserRecord)
  | [] => some []
  | info :: rest =>
    if contains info (str "/nologin") then userLoop rest
    else
      match splitN info 58 2 with
      | [name, description] => (userLoop rest).map (⟨name, description⟩ :: ·)
      | _ => none

/-- `GetUser` on the passwd file, `none` for a panic. -/
def getUser (dat : Option GoString) : Option (List UserRecord) :=
  match dat with
  | none => some []
  | some dat =>
    let userList := split dat 10
    if userList.length < 2 then some [] else userLoop (userList.take (userList.length - 2))

/-- What `getFileUser` comes to. -/
inductive FileUser where
  | found (name : GoString)
  | error
  | panic
  deriving DecidableEq

/-- `get_id` and its text: the unsigned number is put into an `int`. -/
def uidStr (uid : UInt32) : GoString :=
  if uid.toNat < 2 ^ 31 then itoa uid.toNat else 45 :: itoa (2 ^ 32 - uid.toNat)

/-- The loop of `getFileUser`. -/
def findUser (uid : GoString) : List GoString → FileUser
  | [] => .error
  | info :: rest =>
    let s := split info 58
    if 3 ≤ s.length ∧ s.getD 2 [] = uid then .found (s.getD 0 []) else findUser uid rest

/-- `getFileUser` for a file whose owner has this number. -/
def getFileUser (uid : UInt32) (dat : Option GoString) : FileUser :=
  match dat with
  | none => .error
  | some dat =>
    let userList := split dat 10
    if userList.length < 2 then .panic
    else findUser (uidStr uid) (userList.take (userList.length - 2))

/-! ## The format of the file -/

/-- A part of an account line. -/
def IsAccountPart (s : GoString) : Prop := 58 ∉ s ∧ 10 ∉ s

/-- The seven parts of an account line. -/
structure Account where
  name : GoString
  password : GoString
  uid : UInt32
  gid : GoString
  gecos : GoString
  home : GoString
  shell : GoString
  formed : ∀ s ∈ [name, password, gid, gecos, home, shell], IsAccountPart s

def Account.parts (a : Account) : List GoString :=
  [a.name, a.password, itoa a.uid.toNat, a.gid, a.gecos, a.home, a.shell]

def Account.line (a : Account) : GoString := join a.parts [58]

/-- The account as `GetUser` is to report it. -/
def Account.record (a : Account) : UserRecord := ⟨a.name, join a.parts.tail [58]⟩

def Account.nologin (a : Account) : Bool := contains a.line (str "/nologin")

/-- A file with these accounts, each line ended by a newline. -/
def passwdText (accounts : List Account) : GoString := accounts.flatMap fun a => a.line ++ [10]

/-- The accounts that are to be reported. -/
def loginAccounts (accounts : List Account) : List UserRecord :=
  (accounts.filter fun a => !a.nologin).map Account.record

/-- The first account with this number. -/
def ownerOf (accounts : List Account) (uid : UInt32) : FileUser :=
  match accounts.find? fun a => a.uid = uid with
  | some a => .found a.name
  | none => .error

end YulongHids.Agent
