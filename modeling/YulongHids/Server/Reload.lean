import YulongHids.Mongo.IterAll
import YulongHids.Server.Intelligence

/-!
# The reload of configuration and rules

`setConfig` and `setRules` (`server/models/common.go`), which `Heartbeat` calls every 30 seconds while
the scan threads read the same variables. A read of the configuration that fails leaves the zero value
of the temporary it was to fill; the rules are decoded into the ones that are in use.
-/

namespace YulongHids.Server

open Golang Mongo

/-- `notice`, the settings of the notifications. -/
structure NoticeConfig where
  switch : Bool
  api : GoString
  onlyHigh : Bool

/-- `serverConfig`. The document of the server is decoded into the whole of it. -/
structure ServerConfig where
  learn : Bool
  offlineCheck : Bool
  blackList : FilterLists
  whiteList : FilterLists
  privateKey : GoString
  cert : GoString
  intelligence : IntelConfig
  notice : NoticeConfig

def zeroLists : FilterLists := ⟨[], [], [], []⟩

def zeroIntel : IntelConfig := ⟨false, [], [], []⟩

def zeroNotice : NoticeConfig := ⟨false, [], false⟩

def zeroConfig : ServerConfig :=
  ⟨false, false, zeroLists, zeroLists, [], [], zeroIntel, zeroNotice⟩

/-- `Config` and `RuleDB`. -/
structure Globals where
  config : ServerConfig
  ruleDB : List RuleInfo

def zeroRule : RuleInfo := ⟨⟨[], [], [], 0⟩, [], [], ∅, false⟩

/-- What is decoded of the document of a rule, one field after the other. -/
inductive RuleElem where
  /-- The beginning of the embedded document `meta`, which gets its zero value first. -/
  | about
  | name (s : GoString)
  | author (s : GoString)
  | description (s : GoString)
  | level (n : ℤ)
  | source (s : GoString)
  | system (s : GoString)
  /-- The beginning of `rules`, for which a map is made. -/
  | rules
  | rule (key : GoString) (rule : Rule)
  | and (b : Bool)
  /-- A field that `ruleInfo` does not have, or a value of another type. -/
  | other

/-- `readElemTo` for a field of `ruleInfo`. -/
def RuleInfo.set (r : RuleInfo) : RuleElem → RuleInfo
  | .about => { r with about := zeroRule.about }
  | .name s => { r with about := { r.about with name := s } }
  | .author s => { r with about := { r.about with author := s } }
  | .description s => { r with about := { r.about with description := s } }
  | .level n => { r with about := { r.about with level := n } }
  | .source s => { r with source := s }
  | .system s => { r with system := s }
  | .rules => { r with rules := ∅ }
  | .rule key rule => { r with rules := r.rules.insert key rule }
  | .and b => { r with and := b }
  | .other => r

/-- `readDocTo` for a `ruleInfo`. -/
def ruleDecoder : Decoder RuleInfo RuleElem := ⟨zeroRule, RuleInfo.set⟩

/-- How a read of the rules ends. -/
inductive RulesEnd where
  | closed
  /-- An error before the next document. -/
  | failed
  /-- An error in the next document, behind these fields. -/
  | broken (elems : List RuleElem)

/-- What the reads of one reload bring: `none` for a read of the configuration that failed; the
documents of the rules that are read as a whole, and what comes behind them. -/
structure Reads where
  server : Option ServerConfig
  intelligence : Option IntelConfig
  blackList : Option FilterLists
  whiteList : Option FilterLists
  notice : Option NoticeConfig
  rules : List (List RuleElem)
  rulesEnd : RulesEnd

section Reload

variable (r : Reads) (g : Globals)

/-- `Config = res.Dic` and the assignments behind it. -/
def Reads.setDic : Globals := { g with config := r.server.getD zeroConfig }

def Reads.setIntelligence : Globals :=
  { g with config := { g.config with intelligence := r.intelligence.getD zeroIntel } }

def Reads.setBlackList : Globals :=
  { g with config := { g.config with blackList := r.blackList.getD zeroLists } }

def Reads.setWhiteList : Globals :=
  { g with config := { g.config with whiteList := r.whiteList.getD zeroLists } }

def Reads.setNotice : Globals :=
  { g with config := { g.config with notice := r.notice.getD zeroNotice } }

/-- `setConfig`: the states after its assignments. -/
def Reads.setConfigTrace : List Globals :=
  let g1 := r.setDic g
  let g2 := r.setIntelligence g1
  let g3 := r.setBlackList g2
  let g4 := r.setWhiteList g3
  let g5 := r.setNotice g4
  [g1, g2, g3, g4, g5]

/-- `setConfig`. -/
def Reads.setConfig : Globals :=
  r.setNotice (r.setWhiteList (r.setBlackList (r.setIntelligence (r.setDic g))))

/-- The rules that `All` reads. -/
def Reads.readRules : List RuleInfo := r.rules.map ruleDecoder.value

/-- The documents that `All` decodes, the last one maybe in part. -/
def Reads.decoded : List (List RuleElem) :=
  r.rules ++ match r.rulesEnd with
    | .broken elems => [elems]
    | _ => []

/-- `setRules`: the states after each field, and at the end. -/
def Reads.setRulesTrace : List Globals :=
  ((ruleDecoder.seen r.decoded g.ruleDB).map fun rules => { g with ruleDB := rules }) ++
    [{ g with ruleDB := r.readRules }]

/-- The states that a scan may meet during a reload. -/
def Reads.trace : List Globals := g :: r.setConfigTrace g ++ r.setRulesTrace (r.setConfig g)

/-- The state after a reload. -/
def Reads.reload : Globals := { r.setConfig g with ruleDB := r.readRules }

/-! ## What a reload is for -/

/-- The fields that the document of the server has for itself. -/
def ServerConfig.own (c : ServerConfig) : Bool × Bool × GoString × GoString :=
  (c.learn, c.offlineCheck, c.privateKey, c.cert)

/-- The rules to have afterwards. -/
def Reads.newRules : List RuleInfo :=
  match r.rulesEnd with
  | .closed => r.readRules
  | _ => g.ruleDB

/-- What was read is there afterwards, what could not be read is as it was, and a scan in between
meets the old or the new lists and rules. -/
structure ReloadKeeps : Prop where
  own : (r.reload g).config.own = (r.server.elim g.config.own ServerConfig.own)
  intelligence : (r.reload g).config.intelligence = r.intelligence.getD g.config.intelligence
  blackList : (r.reload g).config.blackList = r.blackList.getD g.config.blackList
  whiteList : (r.reload g).config.whiteList = r.whiteList.getD g.config.whiteList
  notice : (r.reload g).config.notice = r.notice.getD g.config.notice
  rules : (r.reload g).ruleDB = r.newRules g
  seenBlack : ∀ s ∈ r.trace g, s.config.blackList = g.config.blackList ∨
    s.config.blackList = r.blackList.getD g.config.blackList
  seenWhite : ∀ s ∈ r.trace g, s.config.whiteList = g.config.whiteList ∨
    s.config.whiteList = r.whiteList.getD g.config.whiteList
  seenRules : ∀ s ∈ r.trace g, s.ruleDB = g.ruleDB ∨ s.ruleDB = r.newRules g

/-- What cannot be read had the zero value before; the lists that the document of the server is
decoded to are the old or the new ones; the rules read before an error are the old ones, and steady
while they are decoded; and if there is no error, the rules that there were and that are read again are
steady, or one of them switches and the others are steady. -/
structure ReloadSafe : Prop where
  own : r.server = none → g.config.own = zeroConfig.own
  intelligence : r.intelligence = none → g.config.intelligence = zeroIntel
  blackList : r.blackList = none → g.config.blackList = zeroLists
  whiteList : r.whiteList = none → g.config.whiteList = zeroLists
  notice : r.notice = none → g.config.notice = zeroNotice
  embeddedBlack : (r.server.getD zeroConfig).blackList = g.config.blackList ∨
    (r.server.getD zeroConfig).blackList = r.blackList.getD g.config.blackList
  embeddedWhite : (r.server.getD zeroConfig).whiteList = g.config.whiteList ∨
    (r.server.getD zeroConfig).whiteList = r.whiteList.getD g.config.whiteList
  failedRules : r.rulesEnd ≠ .closed →
    r.readRules = g.ruleDB ∧ ∀ d ∈ r.rules, ruleDecoder.Steady d (ruleDecoder.value d)
  rules : r.rulesEnd = .closed → (∀ p ∈ r.rules.zip g.ruleDB, ruleDecoder.Steady p.1 p.2) ∨
    ruleDecoder.SwitchesOne r.rules g.ruleDB

end Reload

end YulongHids.Server
