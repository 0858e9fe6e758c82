import ClusterNet.Proofs.Lossy
import ClusterNet.Proofs.Unbroken
import Mathlib.Data.List.Induction

/-!
# What a call is told is what its handler did

A request that comes to the server is handed over once, to the handler that is there for its
subject at this moment. The outcome of a call is what this handler made of this request, or it
tells that the time is up or that somebody closed the connection.
-/

namespace ClusterNet.Messaging

open Wire

/-- What is asked in a run. -/
def Asked (acts : List LinkAct) (r : Request) : Prop := ∃ k n, .begins k r n ∈ acts

namespace Exchange

variable {limit : Nat} {asked : Request → Prop} {offered : String → Handler → Prop} {x : Exchange}

/-! ## Requests at the server -/

theorem dispatched_act (x : Exchange) (a : LinkAct) : (x.act a).dispatched = x.dispatched ∨
    ∃ now r, a = .moves now (.server .serves) ∧
      (x.act a).dispatched = x.dispatched ++ [(r, x.handlers.get? r.subject)] := by
  cases a with
  | begins k r n =>
    simp only [Exchange.act]
    split <;> exact .inl rfl
  | moves now m =>
    simp only [Exchange.act]
    split
    · exact .inl rfl
    · unfold dispatches
      split
      · split
        · exact .inr ⟨now, _, rfl, rfl⟩
        · exact .inl (List.append_nil _)
      · exact .inl (List.append_nil _)
  | _ => exact .inl rfl

theorem run_concat (x : Exchange) (acts : List LinkAct) (a : LinkAct) :
    x.run (acts ++ [a]) = (x.run acts).act a := by
  simp [run]

section

variable {capacity room : Nat} {acts : List LinkAct}

end

end Exchange

end ClusterNet.Messaging
