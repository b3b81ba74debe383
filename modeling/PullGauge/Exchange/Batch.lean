import PullGauge.Exchange.Resources

/-!
# Looking up many pull requests at once

The stubs that a search finds are resolved in batches, one document for each batch, in
which every pull request has a tag of its own. What cannot be resolved is dropped.
-/

namespace PullGauge

def chunksOf {α : Type} (size : Nat) (h : 0 < size) (items : List α) : List (List α) :=
  match items with
  | [] => []
  | a :: r => (a :: r).take size :: chunksOf size h ((a :: r).drop size)
termination_by items.length
decreasing_by simp only [List.length_drop, List.length_cons]; omega

theorem flatten_chunksOf {α : Type} (size : Nat) (h : 0 < size) (items : List α) :
    (chunksOf size h items).flatten = items := by
  fun_induction chunksOf size h items with
  | case1 => rfl
  | case2 a r ih => rw [List.flatten_cons, ih, List.take_append_drop]

theorem mem_chunksOf {α : Type} {size : Nat} {h : 0 < size} {items chunk : List α}
    (hc : chunk ∈ chunksOf size h items) : chunk ≠ [] ∧ chunk.length ≤ size := by
  fun_induction chunksOf size h items with
  | case1 => simp at hc
  | case2 a r ih =>
    rcases List.mem_cons.1 hc with rfl | hc
    · refine ⟨?_, ?_⟩
      · simp; omega
      · exact List.length_take_le ..
    · exact ih hc

def chunks {α : Type} (size : Int) (items : List α) : Outcome (List (List α)) :=
  if h : 0 < size.toNat then .ok (chunksOf size.toNat h items) else .error .emptyChunk

def chunkSize : Payload → Outcome Int
  | .real x => if x < 1 then .error .emptyChunk else .error .mismatch
  | p => p.whole

inductive Selection where
  | field (name : Text)
  | group (head : Text) (parts : List Selection)

mutual
def Selection.write : Selection → Text
  | .field name => name
  | .group head parts =>
    head ++ [' ', '\x7b', ' '] ++ Selection.writeAll parts ++ [' ', '\x7d']
termination_by structural s => s

def Selection.writeAll : List Selection → Text
  | [] => []
  | [s] => s.write
  | s :: r => s.write ++ ' ' :: Selection.writeAll r
termination_by structural s => s
end

structure PullRef where
  owner : Payload
  name : Payload
  number : Payload

namespace PullRef

def isSame (a b : PullRef) : Bool :=
  a.owner.sameKey b.owner && a.name.sameKey b.name && a.number.sameKey b.number

def tag (index : Nat) : Text := "pr".toList ++ Text.ofNat index

def write (selection : Text) (index : Nat) (ref : PullRef) : Outcome Text := do
  let owner ← ref.owner.literal
  let name ← ref.name.literal
  let number ← (Payload.int (← ref.number.toInteger)).literal
  pure (tag index ++ ": repository(owner: ".toList ++ owner ++ ", name: ".toList ++ name ++
    ") \x7b pullRequest(number: ".toList ++ number ++ ") \x7b ".toList ++ selection ++
    " \x7d \x7d".toList)

def writeAll (selection : Text) : Nat → List PullRef → Outcome (List Text)
  | _, [] => .ok []
  | index, ref :: more => do
    let part ← ref.write selection index
    pure (part :: (← writeAll selection (index + 1) more))

def document (refs : List PullRef) (selection : Text) : Outcome Text := do
  let parts ← writeAll selection 0 refs
  pure ("query \x7b ".toList ++ List.intercalate [' '] parts ++ " \x7d".toList)

def ofStub (stub : Payload) : Outcome (Text × Text × PullRef) := do
  let url ← (← stub.member "repository_url").asText "rstrip"
  let (owner, name) ← repositoryOf url
  pure (owner, name, ⟨.text owner, .text name, ← stub.member "number"⟩)

end PullRef

def answerOf (data : Payload) (index : Nat) : Outcome Payload := do
  (← data.part (PullRef.tag index)).field "pullRequest"

def Client.pullRequests {J : Type} (c : Client) (refs : List PullRef) (selection : Text) :
    Talk J (List Payload) :=
  if refs.isEmpty then pure []
  else do
    let document ← PullRef.document refs selection
    let data ← c.query (.text document) .null
    Talk.ofOutcome ((List.range refs.length).mapM (answerOf data))

structure Resolved where
  stub : Payload
  detail : Payload
  owner : Text
  name : Text

namespace Resolved

variable {J : Type}

def pair : List (Payload × Text × Text × PullRef) → List Payload → Talk J (List Resolved)
  | (stub, owner, name, ref) :: more, detail :: details => do
    match detail with
    | .null =>
      Talk.say "pipeline" Log.debug
        ("Skipping unresolvable pull request ".toList ++ owner ++ '/' :: name ++ '#' ::
          ref.number.display)
      pair more details
    | detail => do pure (⟨stub, detail, owner, name⟩ :: (← pair more details))
  | _, _ => pure []

def ofBatch (c : Client) (selection : Text) (index : Nat) (batch : List Payload) :
    Talk J (List Resolved) := do
  let found ← (batch.mapM PullRef.ofStub : Outcome _)
  Talk.say "pipeline" Log.debug
    ("Fetching detail batch ".toList ++ Text.ofNat (index + 1) ++ " (".toList ++
      Text.ofNat batch.length ++ " pull requests)".toList)
  let details ← c.pullRequests (found.map fun (_, _, ref) => ref) selection
  pair (batch.zip found) details

def ofBatches (c : Client) (selection : Text) : Nat → List (List Payload) →
    Talk J (List Resolved)
  | _, [] => pure []
  | index, batch :: more => do
    let first ← ofBatch c selection index batch
    pure (first ++ (← ofBatches c selection (index + 1) more))

/-- The stubs in a payload. Only lists and texts can be cut into batches, but of what is
empty nothing is cut. -/
def stubsOf : Payload → Outcome (List Payload)
  | .list stubs => .ok stubs
  | .text t => .ok (t.map fun c => .text [c])
  | .object [] => .ok []
  | _ => .error .mismatch

def batchSize : Int := 20

def ofStubs (c : Client) (selection : Text) (size : Int) (stubs : List Payload) :
    Talk J (List Resolved) := do
  ofBatches c selection 0 (← (chunks size stubs : Outcome _))

end Resolved

end PullGauge
