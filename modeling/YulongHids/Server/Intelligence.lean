import YulongHids.Golang.Net
import YulongHids.Server.Warning

/-!
# The threat intelligence of the server

`Check.Intelligence` (`server/safecheck/check.go`) asks an interface about the remote addresses and
the hashes that hosts report, and remembers what it asked in `cache`. The ticker of
`ScanMonitorThread` empties the cache; a cache window is what happens between two ticks.
-/

namespace YulongHids.Server

open Golang

/-- `ipToInt`. The shifts and sums are of 64 bits. -/
def ipToInt (ip : GoString) : ℤ :=
  match split ip 46 with
  | b0 :: b1 :: b2 :: b3 :: _ =>
    Int.bmod ((atoi b0).1 * 2 ^ 24 + (atoi b1).1 * 2 ^ 16 + (atoi b2).1 * 2 ^ 8 + (atoi b3).1)
      (2 ^ 64)
  | _ => 0

/-- `isLan`. -/
def isLan (ip : GoString) : Bool :=
  if ip.count 46 ≠ 3 then true
  else
    let ipInt := ipToInt ip
    (167772160 ≤ ipInt && ipInt ≤ 184549375) || (2886729728 ≤ ipInt && ipInt ≤ 2887778303) ||
      (3232235520 ≤ ipInt && ipInt ≤ 3232301055)

/-- `strings.Replace(s, old, new, 1)` for an `old` that is not empty. -/
def replaceFirst (old new : GoString) : GoString → GoString
  | [] => []
  | b :: s => if old <+: b :: s then new ++ (b :: s).drop old.length else b :: replaceFirst old new s

/-- The part `Intelligence` of the configuration. -/
structure IntelConfig where
  switch : Bool
  ipapi : GoString
  fileapi : GoString
  regex : GoString

/-- What a call of `Intelligence` meets: the configuration, and for a URL the body that `http.Get`
brings back, `none` if it fails. -/
structure IntelEnv where
  conf : IntelConfig
  txt : TextLib
  get : GoString → Option GoString

/-- How a call ended. -/
inductive IntelExit where
  | off
  | lan
  | noHash
  | otherType
  | cached
  | getFailed
  | clean
  | alerted
  | crashed
  deriving DecidableEq

/-- The check and the cache after a call, and how it ended. -/
structure Intel where
  check : Check
  cache : List GoString
  exit : IntelExit

/-- The two cases after their own tests: the cache, the request, and the expression on its answer. -/
def Check.lookUp (c : Check) (env : IntelEnv) (cache : List GoString)
    (target api placeholder description : GoString) : Intel :=
  let key := c.info.type ++ c.info.ip ++ target
  if inArray env.txt cache key false then ⟨c, cache, .cached⟩
  else
    let cache' := cache ++ [key]
    match env.get (replaceFirst placeholder target api) with
    | none => ⟨c, cache', .getFailed⟩
    | some body =>
      match env.txt.compile env.conf.regex with
      | none => ⟨c, cache', .crashed⟩
      | some reg =>
        if reg body then
          ⟨{ c with source := str "威胁情报接口", level := 0, description := description, value := target },
            cache', .alerted⟩
        else ⟨c, cache', .clean⟩

/-- `Intelligence`. -/
def Check.intelligence (c : Check) (env : IntelEnv) (cache : List GoString) : Intel :=
  if !env.conf.switch then ⟨c, cache, .off⟩
  else if c.info.type = str "connection" ∨ c.info.type = str "loginlog" then
    let ip := cutPort (c.v.get (str "remote"))
    if isLan ip then ⟨c, cache, .lan⟩
    else c.lookUp env cache ip env.conf.ipapi (str "\x7b$ip\x7d") (str "威胁情报接口显示此IP存在风险")
  else if c.info.type = str "file" then
    if c.v.get (str "hash") = [] then ⟨c, cache, .noHash⟩
    else
      c.lookUp env cache (c.v.get (str "hash")) env.conf.fileapi (str "\x7b$hash\x7d")
        (str "威胁情报接口显示此文件存在风险")
  else ⟨c, cache, .otherType⟩

/-- A record for `Intelligence`. -/
structure IntelRecord where
  info : DataInfo
  v : Record
  env : IntelEnv

/-- The records of a window, one after the other: how each call ended. An expression that does not
compile ends the server. -/
def intelligenceRun (c : Check) (cache : List GoString) : List IntelRecord → List IntelExit
  | [] => []
  | r :: rs =>
    let intel := { c with info := r.info, v := r.v }.intelligence r.env cache
    if intel.exit = .crashed then [.crashed]
    else intel.exit :: intelligenceRun intel.check intel.cache rs

/-! ## What the cache is for -/

/-- What a record is about: the remote address, or the hash. -/
def IntelRecord.target (r : IntelRecord) : GoString :=
  if r.info.type = str "file" then r.v.get (str "hash") else cutPort (r.v.get (str "remote"))

def IntelRecord.sameAs (r r' : IntelRecord) : Prop :=
  r'.info.type = r.info.type ∧ r'.info.ip = r.info.ip ∧ r'.target = r.target

/-- The private ranges of IPv4. -/
def privateRange : List UInt8 → Bool
  | a :: b :: _ => a == 10 || (a == 172 && (16 ≤ b && b ≤ 31)) || (a == 192 && b == 168)
  | _ => false

/-- A text is a dotted quad. -/
def Quad (s : GoString) : Prop := ∃ p4 : List UInt8, p4.length = 4 ∧ s = dottedText p4

/-- The switch is on, the host has an IPv4 address, and the record is one of the three kinds: a
remote address outside the private ranges, or a hash. -/
structure IntelRecord.Valid (r : IntelRecord) : Prop where
  switch : r.env.conf.switch = true
  ip : Quad r.info.ip
  kind : (r.info.type = str "connection" ∨ r.info.type = str "loginlog") ∧
      (∃ p4 : List UInt8, p4.length = 4 ∧ r.target = dottedText p4 ∧ privateRange p4 = false) ∨
    r.info.type = str "file" ∧ r.target ≠ []

/-- A call that ends at the cache test has an earlier record of the window with the same type, host
and target. -/
def SkipsRepeats (c : Check) (rs : List IntelRecord) : Prop :=
  ∀ (n : ℕ) (r : IntelRecord), rs[n]? = some r →
    (intelligenceRun c [] rs)[n]? = some IntelExit.cached →
      ∃ m < n, ∃ r', rs[m]? = some r' ∧ r.sameAs r'

/-- Two records of one type where the address of the one host goes on with digits, and the target of
the other record begins with them. -/
def IntelRecord.shifted (r r' : IntelRecord) : Prop :=
  r'.info.type = r.info.type ∧ ∃ d ≠ [], (∀ b ∈ d, 48 ≤ b ∧ b ≤ 57) ∧
    ((r'.info.ip = r.info.ip ++ d ∧ r.target = d ++ r'.target) ∨
      (r.info.ip = r'.info.ip ++ d ∧ r'.target = d ++ r.target))

/-- Wherever digits of an earlier record have moved, there is an earlier record with the same type,
host and target, too. -/
def RepeatedWhereShifted (rs : List IntelRecord) : Prop :=
  ∀ (n : ℕ) (r : IntelRecord), rs[n]? = some r →
    (∃ m < n, ∃ r', rs[m]? = some r' ∧ r.shifted r') → ∃ m < n, ∃ r', rs[m]? = some r' ∧ r.sameAs r'

end YulongHids.Server
