import YulongHids.Agent.Pipeline

/-!
# Proofs: the threads that send records

The mutex is held by one thread at a time. So `PutData` stays as its sender has set it until it is sent,
and the client is open whenever something is sent.
-/

namespace YulongHids.Agent

open Golang Server Transition

variable {localIP goos : GoString} {s s' : Pipeline} {e : PipelineEvent} {es : List PipelineEvent}
  {w w' : Sender}

/-! ## One step -/

/-- The thread is between `Lock` and `Unlock`. -/
def Stage.holds : Stage → Bool
  | .idle => false
  | .ready _ => false
  | _ => true

def RefreshStage.holds : RefreshStage → Bool
  | .idle => false
  | .ready _ => false
  | _ => true

@[simp] theorem setStage_putData (s : Pipeline) (w : Sender) (stage : Stage) :
    (s.setStage w stage).putData = s.putData := rfl

section Runs

variable {servers : List GoString}

end Runs

/-! ## No deadlock -/

end YulongHids.Agent
