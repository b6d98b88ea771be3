import VirtualFiles.Emulator.Host

/-!
# Scripts

A builder that calls back is described by a script: it asks for something, goes on with the
answer, and in the end gives its outcome. A request may lead to a further call of the
builder, so a script also says what the builder does in such a call. Scripts are trees, every
branch of which ends; a run of a script therefore ends as well, however deeply calls are
nested.

The requests of a host from outside all builder calls form a script too, whose outcome is of
no interest.

## Main definitions

* `Script` — requests to emulators and an outcome
* `Script.ofRequests` — requests one after the other, whatever the answers
* `Script.play` — runs a script on a host
-/

namespace VirtualFiles

/-- What a builder does during one call. -/
inductive Script
  | finish (outcome : Except String Container)
  /-- Asks an emulator. `nested` is what the builder does if it is called before the request
  is answered, given the number of that call. -/
  | ask (emulator : Emulator) (request : Request) (nested : Nat → BuildCall → Script)
    (resume : Answer → Script)

namespace Script

instance : Inhabited Script := ⟨.finish (.ok {})⟩

/-- Asks for everything in a list, whatever the answers, and comes to an outcome. -/
def ofRequests (nested : Nat → BuildCall → Script) (outcome : Except String Container) :
    List (Emulator × Request) → Script
  | [] => .finish outcome
  | (emulator, request) :: rest =>
    .ask emulator request nested fun _ => ofRequests nested outcome rest

/-- Runs a script on a host. -/
def play : Script → Host → Except String Container × Host
  | .finish outcome, h => (outcome, h)
  | .ask emulator request nested resume, h =>
    let (answer, next) :=
      h.perform emulator (fun number call inner => (nested number call).play inner) request
    (resume answer).play next

end Script

end VirtualFiles
