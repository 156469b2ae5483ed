import ObjectSyncer.History
import ObjectSyncer.Interaction.Shadow
import ObjectSyncer.Undisturbed

/-!
# What a run can see and touch

A footprint is a set of objects and ObjectSyncs. A request in a footprint is served by what the
server stores there, and changes nothing else. So a run in a footprint achieves in company what it
achieves undisturbed, as long as the others leave its footprint alone.
-/
namespace ObjectSyncer

open Interaction Interaction.Program Server

/-- Some objects and ObjectSyncs that a run may see and touch. -/
structure Footprint where
  keys : ObjectKey → Prop
  syncs : NamespacedName → Prop

namespace Footprint

variable {footprint other : Footprint} {before middle after : Server}

/-- Nothing in a footprint differs. -/
structure Same (footprint : Footprint) (before after : Server) : Prop where
  objects : ∀ key, footprint.keys key → after.objects key = before.objects key
  syncs : ∀ name, footprint.syncs name → after.syncs name = before.syncs name

/-- Two footprints have nothing in common. -/
structure Apart (footprint other : Footprint) : Prop where
  keys : ∀ key, footprint.keys key → ¬other.keys key
  syncs : ∀ name, footprint.syncs name → ¬other.syncs name

/-- One footprint lies in another. -/
structure Inside (footprint other : Footprint) : Prop where
  keys : ∀ key, footprint.keys key → other.keys key
  syncs : ∀ name, footprint.syncs name → other.syncs name

/-- A server agrees with itself on a footprint. -/
theorem Same.refl (footprint : Footprint) (server : Server) : footprint.Same server server :=
  ⟨fun _ _ => rfl, fun _ _ => rfl⟩

/-- What stays the same twice on a footprint stays the same. -/
theorem Same.trans (first : footprint.Same before middle) (second : footprint.Same middle after) :
    footprint.Same before after :=
  ⟨fun key member => (second.objects key member).trans (first.objects key member),
    fun name member => (second.syncs name member).trans (first.syncs name member)⟩

/-- Less can differ in a smaller footprint. -/
theorem Same.mono (same : other.Same before after) (inside : footprint.Inside other) :
    footprint.Same before after :=
  ⟨fun key member => same.objects key (inside.keys key member),
    fun name member => same.syncs name (inside.syncs name member)⟩

/-- Two footprints are apart from each other. -/
theorem Apart.symm (apart : footprint.Apart other) : other.Apart footprint :=
  ⟨fun key member shared => apart.keys key shared member,
    fun name member shared => apart.syncs name shared member⟩

/-- What lies in a footprint is apart from what that footprint is apart from. -/
theorem Apart.mono {inner : Footprint} (apart : footprint.Apart other)
    (inside : inner.Inside footprint) : inner.Apart other :=
  ⟨fun key member => apart.keys key (inside.keys key member),
    fun name member => apart.syncs name (inside.syncs name member)⟩

/-- Two footprints together. -/
def union (footprint other : Footprint) : Footprint where
  keys key := footprint.keys key ∨ other.keys key
  syncs name := footprint.syncs name ∨ other.syncs name

/-- What agrees on two footprints agrees on each. -/
theorem Same.of_union (same : (footprint.union other).Same before after) :
    footprint.Same before after ∧ other.Same before after :=
  ⟨same.mono ⟨fun _ => .inl, fun _ => .inl⟩, same.mono ⟨fun _ => .inr, fun _ => .inr⟩⟩

/-- What is apart from two footprints is apart from both together. -/
theorem Apart.union {third : Footprint} (first : third.Apart footprint)
    (second : third.Apart other) :
    third.Apart (footprint.union other) :=
  ⟨fun key member => not_or.mpr ⟨first.keys key member, second.keys key member⟩,
    fun name member => not_or.mpr ⟨first.syncs name member, second.syncs name member⟩⟩

/-- Two footprints inside a third one lie in it together. -/
theorem Inside.union {third : Footprint} (first : footprint.Inside third)
    (second : other.Inside third) : (footprint.union other).Inside third :=
  ⟨fun key => Or.rec (first.keys key) (second.keys key),
    fun name => Or.rec (first.syncs name) (second.syncs name)⟩

/-- A request that reads and writes in a footprint only. -/
def Covers (footprint : Footprint) : ApiRequest → Prop
  | .create api body => footprint.keys (api.key body.metadata.nameAny)
  | .get api name | .replace api name _ | .apply api name _ | .jsonPatch api name _
  | .delete api name => footprint.keys (api.key name)
  | .getSync sync | .getSyncStatus sync | .replaceSyncStatus sync _ | .jsonPatchSync sync _ =>
    footprint.syncs sync
  | .discoverGroup _ => False

/-- A call that asks the API server about a footprint only. -/
def Admits (footprint : Footprint) : Call → Prop
  | .api request => footprint.Covers request
  | _ => True

/-- Writing an object of two servers that agree on it leaves them in agreement on a footprint. -/
theorem Same.write (same : footprint.Same before after) {key : ObjectKey}
    (member : footprint.keys key) (change : DynamicObject → DynamicObject)
    (keeps : ∀ object, (change object).metadata.name = object.metadata.name ∧
      (change object).metadata.namespace_ = object.metadata.namespace_) :
    footprint.Same (before.write key change keeps) (after.write key change keeps) := by
  refine ⟨fun key' member' => ?_, same.syncs⟩
  rw [write_objects, write_objects, same.objects key member]
  by_cases hit : key' = key
  · rw [hit, Function.update_self, Function.update_self]
  · rw [Function.update_of_ne hit, Function.update_of_ne hit, same.objects key' member']

/-- Creating an object in two servers that agree on a footprint leaves them in agreement. -/
theorem Same.create {maker : Option ObjectSyncRef} {choice : Choice} {api : DynamicApi}
    {name : String} {body : DynamicObject} (same : footprint.Same before after) :
    footprint.Same (before.create maker choice api name body).2
      (after.create maker choice api name body).2 := by
  refine ⟨fun key' member' => ?_, same.syncs⟩
  rw [create_objects, create_objects]
  by_cases hit : key' = api.key name
  · rw [hit, Function.update_self, Function.update_self]
  · rw [Function.update_of_ne hit, Function.update_of_ne hit, same.objects key' member']

/-- Writing an ObjectSync of two servers that agree on it leaves them in agreement. -/
theorem Same.writeSync (same : footprint.Same before after) {name : NamespacedName}
    (member : footprint.syncs name) (change : ObjectSync → ObjectSync)
    (keeps : ∀ sync, (change sync).metadata.name = sync.metadata.name ∧
      (change sync).metadata.namespace_ = sync.metadata.namespace_) :
    footprint.Same (before.writeSync name change keeps) (after.writeSync name change keeps) := by
  refine ⟨same.objects, fun name' member' => ?_⟩
  rw [writeSync_syncs, writeSync_syncs, same.syncs name member]
  by_cases hit : name' = name
  · rw [hit, Function.update_self, Function.update_self]
  · rw [Function.update_of_ne hit, Function.update_of_ne hit, same.syncs name' member']

/-- Servers that agree on a footprint serve its requests in the same way, and agree afterwards. -/
theorem serve_same (maker : Option ObjectSyncRef) (choice : Choice) {request : ApiRequest}
    (covers : footprint.Covers request) (same : footprint.Same before after) :
    (before.serve maker choice request).1 = (after.serve maker choice request).1 ∧
      footprint.Same (before.serve maker choice request).2
        (after.serve maker choice request).2 := by
  cases request with
  | get api name =>
    simp only [serve, same.objects _ covers]
    split <;> exact ⟨rfl, same⟩
  | create api body =>
    simp only [serve, same.objects _ covers]
    split
    · exact ⟨rfl, same⟩
    · exact ⟨rfl, same.create⟩
  | replace api name body =>
    simp only [serve, same.objects _ covers]
    split
    · exact ⟨rfl, same⟩
    · split
      · exact ⟨rfl, same⟩
      · exact ⟨rfl, same.write covers (choice.replaced · body) fun _ => ⟨rfl, rfl⟩⟩
  | apply api name body =>
    simp only [serve, same.objects _ covers]
    split
    · split
      · exact ⟨rfl, same⟩
      · exact ⟨rfl, same.create⟩
    · split
      · exact ⟨rfl, same⟩
      · exact ⟨rfl, same.write covers (choice.applied · body) fun _ => ⟨rfl, rfl⟩⟩
  | jsonPatch api name patch =>
    simp only [serve, same.objects _ covers]
    split
    · exact ⟨rfl, same⟩
    · split
      · exact ⟨rfl, same⟩
      · exact ⟨rfl, same.write covers (choice.finalized · _) fun _ => ⟨rfl, rfl⟩⟩
  | delete api name =>
    simp only [serve, same.objects _ covers]
    split
    · exact ⟨rfl, same⟩
    · exact ⟨rfl, same.write covers choice.deleted fun _ => ⟨rfl, rfl⟩⟩
  | getSync sync =>
    simp only [serve, same.syncs _ covers]
    split <;> exact ⟨rfl, same⟩
  | getSyncStatus sync =>
    simp only [serve, same.syncs _ covers]
    split <;> exact ⟨rfl, same⟩
  | replaceSyncStatus sync body =>
    simp only [serve, same.syncs _ covers]
    split
    · exact ⟨rfl, same⟩
    · split
      · exact ⟨rfl, same⟩
      · exact ⟨rfl, same.writeSync covers (choice.withStatus · body) fun _ => ⟨rfl, rfl⟩⟩
  | jsonPatchSync sync patch =>
    simp only [serve, same.syncs _ covers]
    split
    · exact ⟨rfl, same⟩
    · split
      · exact ⟨rfl, same⟩
      · split
        · exact ⟨rfl, same⟩
        · exact ⟨rfl, same.writeSync covers (choice.patched · patch _) fun _ => ⟨rfl, rfl⟩⟩
  | discoverGroup group => exact covers.elim

/-- The object that a request of a footprint writes lies in it. -/
theorem Covers.target {request : ApiRequest} {key : ObjectKey} (covers : footprint.Covers request)
    (target : request.target = some key) : footprint.keys key := by
  cases request with
  | create api body => exact Option.some.inj target ▸ covers
  | replace api name body => exact Option.some.inj target ▸ covers
  | apply api name body => exact Option.some.inj target ▸ covers
  | jsonPatch api name patch => exact Option.some.inj target ▸ covers
  | delete api name => exact Option.some.inj target ▸ covers
  | _ => cases target

/-- The ObjectSync that a request of a footprint writes lies in it. -/
theorem Covers.syncTarget {request : ApiRequest} {name : NamespacedName}
    (covers : footprint.Covers request) (target : request.syncTarget = some name) :
    footprint.syncs name := by
  cases request with
  | replaceSyncStatus sync body => exact Option.some.inj target ▸ covers
  | jsonPatchSync sync patch => exact Option.some.inj target ▸ covers
  | _ => cases target

/-- A request of a footprint leaves what is apart from it. -/
theorem Covers.leaves {maker : Option ObjectSyncRef} {request : ApiRequest}
    (covers : footprint.Covers request) (effect : Effect maker before request after)
    (apart : footprint.Apart other) : other.Same before after := by
  refine ⟨fun key member => effect.objects_eq fun target => ?_,
    fun name member => effect.syncs_eq fun target => ?_⟩
  · exact apart.keys key (covers.target target) member
  · exact apart.syncs name (covers.syncTarget target) member

end Footprint

section Requests

variable {footprint : Footprint} {request : ApiRequest}

/-- A removal stays in a footprint that has its destination. -/
theorem DestinationStatus.Removal.admitted {d : DestinationStatus} (removal : d.Removal request)
    (member : footprint.keys d.key) : footprint.Admits (.api request) := by
  cases removal <;> exact member

/-- An upsert stays in a footprint that has its destination. -/
theorem Upsert.admitted {api : DynamicApi} {name : String} (upsert : Upsert api name request)
    (member : footprint.keys (api.key name)) : footprint.Admits (.api request) := by
  cases upsert with
  | create named =>
    rw [← named] at member
    exact member
  | _ => exact member

/-- A status write stays in a footprint that has its ObjectSync. -/
theorem ObjectSyncModifications.StatusWrite.admitted {event : ObjectSyncModifications}
    (write : event.StatusWrite request) (member : footprint.syncs event.address) :
    footprint.Admits (.api request) := by
  cases write <;> exact member

end Requests

/-- Others leave a footprint alone, every request is served, the namespace cache has a given
content, and revisions determine the fields of objects. A run leaves what is apart from its
footprint. -/
@[reducible] def company (footprint : Footprint) (maker : Option ObjectSyncRef)
    (cache : List Namespace) (contents : Contents) : Contract Call Reply Server where
  rely := fun before after => footprint.Same before after ∧
    after.Determined contents ∧ after.Settled
  answers := fun before call reply after => answersBy (Served maker) before call reply after ∧
    Cached cache call reply ∧ after.Determined contents
  guarantee := fun before _ _ after => after.Settled ∧
    ∀ other, footprint.Apart other → other.Same before after

section Company

variable {α : Type} {footprint : Footprint} {maker : Option ObjectSyncRef} {cache : List Namespace}
  {contents : Contents}

/-- A server that agrees on a footprint and has determined fields shadows another one. -/
def Footprint.Shadows (footprint : Footprint) (contents : Contents)
    (shadow world : Server) : Prop :=
  footprint.Same shadow world ∧ shadow.Determined contents ∧ world.Determined contents

/-- An undisturbed run is the shadow of a run in company. -/
theorem company_shadows : (company footprint maker cache contents).Shadows
    (alone maker cache (·.Determined contents)) footprint.Admits
    (footprint.Shadows contents) := by
  refine ⟨?_, ?_⟩
  · rintro shadow world moved ⟨same, known, -⟩ ⟨moves, determined, -⟩
    exact ⟨shadow, rfl, same.trans moves, known, determined⟩
  · rintro shadow world call reply after ⟨same, known, -⟩ admits ⟨answered, cached, determined⟩
    cases call with
    | api request =>
      obtain ⟨choice, served⟩ := answered
      obtain ⟨agree, later⟩ := Footprint.serve_same maker choice admits same
      have effect := shadow.serve_effect maker choice request
      rw [served] at agree later
      have known' : (shadow.serve maker choice request).2.Determined contents := by
        intro key stored found
        by_cases member : footprint.keys key
        · rw [← later.objects key member] at found
          exact determined key stored found
        · rw [effect.objects_eq fun target =>
            member (Footprint.Covers.target admits target)] at found
          exact known key stored found
      exact ⟨(shadow.serve maker choice request).2, ⟨⟨choice, Prod.ext agree rfl⟩, cached, known'⟩,
        later, known', determined⟩
    | _ =>
      have still : after = world := answered
      subst still
      exact ⟨shadow, ⟨rfl, cached, known⟩, same, known, determined⟩

/-- What is known of the replies in company. -/
def Informed (cache : List Namespace) (call : Call) (reply : Reply call) : Prop :=
  Honest call reply ∧ Cached cache call reply

/-- What is known of a program for honest replies is known when they tell the namespaces. -/
theorem wp_informed {program : Async α} {allowed : Call → Prop} {post : α → Unit → Prop}
    (shape : program.wp (.requests Honest allowed) post ()) :
    program.wp (.requests (Informed cache) allowed) post () := by
  refine wp_mono ?_ ?_ ?_ ?_ shape
  · exact fun _ _ _ => trivial
  · exact fun _ _ _ _ informed => informed.1
  · exact fun _ _ _ _ _ => id
  · exact fun _ _ => id

/-- Replies to calls that are served are honest. -/
theorem informed_of_served {before after : Server} {call : Call} {reply : Reply call}
    (answered : answersBy (Served maker) before call reply after)
    (cached : Cached cache call reply) :
    Informed cache call reply := by
  refine ⟨answersBy_faulty_honest (?_ : answersBy (Faulty maker) before call reply after), cached⟩
  cases call with
  | api request => exact .served answered
  | _ => exact answered

/-- An answered call of a footprint settles, and leaves what is apart from it. -/
theorem company_leaves {before after : Server} {call : Call} {reply : Reply call}
    (settled : before.Settled) (admits : footprint.Admits call)
    (answered : (company footprint maker cache contents).answers before call reply after) :
    after.Settled ∧ ∀ other, footprint.Apart other → other.Same before after := by
  cases call with
  | api request =>
    obtain ⟨choice, served⟩ := answered.1
    have effect := before.serve_effect maker choice request
    rw [served] at effect
    exact ⟨effect.settled settled, fun other apart => Footprint.Covers.leaves admits effect apart⟩
  | _ =>
    have still : after = before := answered.1
    rw [still]
    exact ⟨settled, fun other _ => .refl other before⟩

/-- What an undisturbed run in a footprint achieves it achieves in company. -/
theorem wp_company {program : Async α} {post : α → Server → Prop} {server : Server}
    (shape : program.wp (.requests (Informed cache) footprint.Admits) (fun _ _ => True) ())
    (holds : program.wp (alone maker cache (·.Determined contents)) post server)
    (determined : server.Determined contents) (settled : server.Settled) :
    program.wp (company footprint maker cache contents) (fun value after =>
      after.Settled ∧ ∃ shadow, footprint.Same shadow after ∧ post value shadow) server := by
  refine wp_imp ?_ (wp_shadow_of company_shadows
    (fun _ _ _ _ answered => informed_of_served answered.1 answered.2.1) shape ?_ ?_ holds
    ⟨.refl footprint server, determined, determined⟩ settled)
  · rintro value after ⟨settled, shadow, shadows, holds⟩
    exact ⟨settled, shadow, shadows.1, holds⟩
  · exact fun _ _ _ moves => moves.2.2
  · intro before call reply after settled admits answered
    have left := company_leaves settled admits answered
    exact ⟨left, left.1⟩

end Company

end ObjectSyncer
