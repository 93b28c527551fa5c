import RosettaGateway.Node.Reply

/-!
# Dialogues with a node

A computation that needs a node is a `Dialogue`: it is done, or it asks one thing and goes on with
the reply. So what is asked, and in which order, is part of the value, and nothing is said about
where the replies come from. `Dialogue.run` plays a dialogue against a node that may answer the same
request differently each time; `run_bind` says how the requests of two dialogues follow each other.
-/

namespace RosettaGateway

/-- A computation that asks a node. -/
inductive Dialogue (α : Type) where
  | done (a : α)
  | ask (call : NodeCall) (next : NodeReply → Dialogue α)

namespace Dialogue

/-- Goes on with the result of a dialogue. -/
def bind {α β : Type} : Dialogue α → (α → Dialogue β) → Dialogue β
  | .done a, f => f a
  | .ask call next, f => .ask call fun reply => (next reply).bind f

instance : Monad Dialogue where
  pure := .done
  bind := bind

@[simp] theorem pure_eq {α : Type} (a : α) : (pure a : Dialogue α) = .done a := rfl

@[simp] theorem done_bind {α β : Type} (a : α) (f : α → Dialogue β) :
    (Dialogue.done a >>= f) = f a := rfl

@[simp] theorem ask_bind {α β : Type} (call : NodeCall) (next : NodeReply → Dialogue α)
    (f : α → Dialogue β) :
    (Dialogue.ask call next >>= f) = .ask call fun reply => next reply >>= f := rfl

theorem bind_done {α : Type} (d : Dialogue α) : (d >>= Dialogue.done) = d := by
  induction d with
  | done a => rfl
  | ask call next ih => simp [ih]

theorem bind_assoc {α β γ : Type} (d : Dialogue α) (f : α → Dialogue β) (g : β → Dialogue γ) :
    (d >>= f >>= g) = d >>= fun a => f a >>= g := by
  induction d with
  | done a => rfl
  | ask call next ih => simp [ih]

instance : LawfulMonad Dialogue :=
  LawfulMonad.mk' Dialogue bind_done (fun _ _ => rfl) bind_assoc

/-- Plays a dialogue. The node is asked with the number of requests made so far and the request; the
requests are listed in order. -/
def run {α : Type} (node : Nat → NodeCall → NodeReply) : Nat → Dialogue α → α × List NodeCall
  | _, .done a => (a, [])
  | n, .ask call next =>
    let (a, calls) := run node (n + 1) (next (node n call))
    (a, call :: calls)

@[simp] theorem run_done {α : Type} (node : Nat → NodeCall → NodeReply) (n : Nat) (a : α) :
    (Dialogue.done a).run node n = (a, []) := rfl

@[simp] theorem run_ask {α : Type} (node : Nat → NodeCall → NodeReply) (n : Nat) (call : NodeCall)
    (next : NodeReply → Dialogue α) :
    (Dialogue.ask call next).run node n =
      (((next (node n call)).run node (n + 1)).1,
        call :: ((next (node n call)).run node (n + 1)).2) := rfl

/-- One dialogue after another: the requests of the first come first, and the second one goes on
counting where the first has stopped. -/
theorem run_bind {α β : Type} (node : Nat → NodeCall → NodeReply) (n : Nat) (d : Dialogue α)
    (f : α → Dialogue β) :
    (d >>= f).run node n =
      let (a, calls) := d.run node n
      let (b, more) := (f a).run node (n + calls.length)
      (b, calls ++ more) := by
  induction d generalizing n with
  | done a => rfl
  | ask call next ih =>
    have shift (k : Nat) : n + 1 + k = n + (k + 1) := by omega
    simp only [ask_bind, run_ask, ih, List.length_cons, List.cons_append, shift]

end Dialogue

end RosettaGateway
