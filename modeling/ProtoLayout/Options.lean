/-!
Options of a layout, each with a default.
-/

namespace ProtoLayout

/-- The test functions a fixture's runner calls. -/
structure TestFunctions where
  test : String := "test"
  asyncTest : String := "asyncTest"
  beginCategory : String := "module"
deriving DecidableEq, Repr, Inhabited

structure Options where
  /-- The object that global-method holders attach their static methods to. -/
  globalObject : String := "window"
  /-- The runtime object with `registerNamespace` and the generic-instance helpers. -/
  typeSystem : String := "Type"
  emitTypeBanners : Bool := true
  /-- The local name of the instantiated type inside a generic factory. -/
  genericPlaceholder : String := "$type"
  testRunnerMethod : String := "runTests"
  testFunctions : TestFunctions := {}
deriving DecidableEq, Repr, Inhabited

end ProtoLayout
