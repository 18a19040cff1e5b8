import ResourceClient.Cache.Flight

/-! Who listens on the hub: the cache, and observers from outside. -/
namespace ResourceClient

inductive Listener where
  | entry (key : String)
  | cache
  /-- A cache that never held anything. -/
  | spare
  | observer (name : String) (reactions : List Reaction)
  deriving Inhabited

end ResourceClient
