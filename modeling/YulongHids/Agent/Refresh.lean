import YulongHids.Agent.ServerList
import YulongHids.Transition.History

/-!
# The goroutines of `configRefresh`

Every turn of `configRefresh` (`agent/client/agent.go`) makes a channel without a buffer and starts a
goroutine that calls `GetInfo` and then sends into it. The turn receives from the channel and gets the
list of the servers, or it gives up after three seconds; nobody else ever receives from its channel.
The clock counts seconds.
-/

namespace YulongHids.Agent

open Golang Transition

/-- A goroutine: `GetInfo` has not returned, it has and the goroutine is at `ch <- true`, or the
goroutine has ended. -/
inductive Caller where
  | calling
  | sending
  | returned
  deriving DecidableEq

/-- Where the loop is: at the ticker, in the `select` of a turn, or behind the receive. -/
inductive TurnStage where
  | idle
  | waiting (turn : ℕ)
  | listing
  deriving DecidableEq

/-- The loop, since when it is in the `select`, the goroutines of the turns so far, and the agent. -/
structure Refresher where
  now : ℕ
  stage : TurnStage
  since : ℕ
  callers : List Caller
  agent : AgentState

inductive RefresherEvent where
  | pass (seconds : ℕ)
  /-- The ticker fires. -/
  | tick
  /-- `GetInfo` returns to the goroutine of a turn. -/
  | answer (turn : ℕ) (ok : Bool)
  /-- A turn receives from its goroutine. -/
  | receive (turn : ℕ)
  | timeout (turn : ℕ)
  /-- `getServerList` returns, `none` for an error, and the turn ends. -/
  | list (serverList : Option (List GoString)) (dial : GoString → Option GoString)

namespace Refresher

/-- `configRefresh` has just been called. -/
def start (a : AgentState) : Refresher := ⟨0, .idle, 0, [], a⟩

def step (s : Refresher) : RefresherEvent → Option Refresher
  | .pass seconds => some { s with now := s.now + seconds }
  | .tick =>
    if s.stage = .idle then
      some { s with
        stage := .waiting s.callers.length
        since := s.now
        callers := s.callers ++ [.calling] }
    else none
  | .answer turn ok =>
    if s.callers[turn]? = some .calling then
      some { s with callers := s.callers.set turn (if ok then .sending else .returned) }
    else none
  | .receive turn =>
    if s.stage = .waiting turn ∧ s.callers[turn]? = some .sending then
      some { s with stage := .listing, callers := s.callers.set turn .returned }
    else none
  | .timeout turn =>
    if s.stage = .waiting turn ∧ s.since + 3 ≤ s.now then some { s with stage := .idle } else none
  | .list serverList dial =>
    if s.stage = .listing then
      (configRefresh s.agent ⟨true, serverList, dial⟩).map fun a => { s with stage := .idle, agent := a }
    else none

end Refresher

end YulongHids.Agent
