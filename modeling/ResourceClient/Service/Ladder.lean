import ResourceClient.Service.Write

/-!
Version ladders that allow a single head. A version posted beside another one is rejected; it is
then placed after the new head and posted again, a limited number of times.
-/
namespace ResourceClient.Service

open ResourceClient.Action

/-- The head that the tag of an item names. Always asked of the server. -/
def newest (item : Path) : Action Path := do
  let address ← need (requireReal "get" item)
  let tag ← getWith (.real (Address.join address Known.last)) [] { bypass := true }
  let heads := ((tag.sheet? Known.tag).map (Sheet.stringList · "elements")).getD []
  match heads with
  | [head] =>
    match Path.parse? head with
    | some path => return path
    | none => fail (.invalidPath head)
  | _ => fail (.noSingleHead address heads)

structure VersionPost where
  value : Resource
  rebased : Bool
  deriving Inhabited

def postAfter (item : Path) (version : Resource) :
    Nat → RetryState → Path → Bool → Action VersionPost
  | 0, state, _, _ => fail (.retriesSpent item.toString state.attempts)
  | attempts + 1, state, follows, rebased => do
    let state := state.recordAttempt
    match ← outcome (post item (version.setFollows follows)) with
    | .ok value => return { value, rebased }
    | .error fault =>
      if !fault.isForkConflict then fail fault
      else
        match state.onConflict with
        | (none, _) => fail (.retriesSpent item.toString state.attempts)
        | (some wait, state) => do
          rest wait
          let head ← newest item
          postAfter item version attempts state head true

/-- Appends a version after `old`, or after whatever the head is by then. -/
def postVersion (old : Path) (resource : Resource) (rootVersions : Option (List Path)) :
    Action VersionPost := do
  let address ← need (requireReal "post" old)
  let policy := (← look).config.retryPolicy
  let version := { resource with rootVersions := rootVersions.getD resource.rootVersions }
  postAfter (.real (Address.parent address)) version (policy.maxAttempts + 1)
    (RetryState.start policy) old false

end ResourceClient.Service
