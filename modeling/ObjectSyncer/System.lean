import ObjectSyncer.Memory
import ObjectSyncer.Server

/-!
# The API server and the shared memory

The state of everything that the tasks of the controller work on.
-/
namespace ObjectSyncer

open Interaction

/-- The API server together with the memory of the controller. -/
structure System where
  server : Server
  memory : Memory

/-- How the calls of a run are answered, given how requests are served. -/
def System.answersBy (serves : Server → (request : ApiRequest) →
    Except KubeError (ApiValue request) → Server → Prop) : Answers Call Reply System
  | system, .api request, reply, after =>
    serves system.server request reply after.server ∧ after.memory = system.memory
  | system, .memory op, reply, after =>
    system.memory.exec op = (reply, after.memory) ∧ after.server = system.server
  | system, _, _, after => after = system

/-- More ways to serve requests are more ways to answer calls. -/
theorem System.answersBy_mono {serves serves' : Server → (request : ApiRequest) →
      Except KubeError (ApiValue request) → Server → Prop}
    (more : ∀ server request reply after, serves server request reply after →
      serves' server request reply after)
    {system after : System} {call : Call} {reply : Reply call}
    (answered : System.answersBy serves system call reply after) :
    System.answersBy serves' system call reply after := by
  cases call with
  | api request => exact ⟨more _ _ _ _ answered.1, answered.2⟩
  | memory op => exact answered
  | namespaces => exact answered
  | clock => exact answered

/-- Answer all calls for given choices of the server, namespaces and clock readings. -/
def System.answer (maker : Option ObjectSyncRef) (choice : Choice) (cache : List Namespace)
    (time : String) : Handler Call Reply System
  | system, .api request =>
    let (reply, server) := system.server.serve maker choice request
    (reply, { system with server := server })
  | system, .memory op =>
    let (reply, memory) := system.memory.exec op
    (reply, { system with memory := memory })
  | system, .namespaces => (cache, system)
  | system, .clock => (time, system)

/-- The answers for given choices of the server are possible, with nothing failing. -/
theorem System.answer_allowed (maker : Option ObjectSyncRef) (choice : Choice)
    (cache : List Namespace) (time : String) (system : System) (call : Call) :
    System.answersBy (Served maker) system call (system.answer maker choice cache time call).1
      (system.answer maker choice cache time call).2 := by
  cases call with
  | api request => exact ⟨⟨choice, rfl⟩, rfl⟩
  | memory op => exact ⟨rfl, rfl⟩
  | namespaces => rfl
  | clock => rfl

/-- Only operations on the memory change it, and they leave the server. -/
theorem System.memory_of_answered {serves : Server → (request : ApiRequest) →
      Except KubeError (ApiValue request) → Server → Prop}
    {system after : System} {call : Call} {reply : Reply call}
    (answered : System.answersBy serves system call reply after) :
    (∃ op, call = .memory op ∧ (system.memory.exec op).2 = after.memory ∧
        after.server = system.server) ∨ after.memory = system.memory := by
  cases call with
  | memory op => exact .inl ⟨op, rfl, congrArg Prod.snd answered.1, answered.2⟩
  | api request => exact .inr answered.2
  | namespaces => exact .inr (congrArg System.memory answered)
  | clock => exact .inr (congrArg System.memory answered)

/-- What a run of the whole system sees of the server, a run that knows nothing else sees. -/
theorem System.server_of_answered {serves : Server → (request : ApiRequest) →
      Except KubeError (ApiValue request) → Server → Prop}
    {system after : System} {call : Call} {reply : Reply call}
    (answered : System.answersBy serves system call reply after) :
    ObjectSyncer.answersBy serves system.server call reply after.server := by
  cases call with
  | api request => exact answered.1
  | memory op => exact answered.2
  | namespaces => exact congrArg System.server answered
  | clock => exact congrArg System.server answered

/-- Replies of the server are about what was asked for. -/
theorem System.answersBy_honest {maker : Option ObjectSyncRef} {system after : System} {call : Call}
    {reply : Reply call} (answered : System.answersBy (Faulty maker) system call reply after) :
    Honest call reply := by
  cases call with
  | api request => exact Faulty.honest answered.1
  | memory op => trivial
  | namespaces => trivial
  | clock => trivial

end ObjectSyncer
