import ProtoLayout.Layout.Fragment

/-!
Test fixtures: the tests among the instance methods are folded into one runner method,
added after the others, that registers them category by category.
-/

namespace ProtoLayout.Layout

open Script

/-- Files a test under its category, keeping categories in order of first appearance. -/
def fileTest (groups : List (Option String × List (Method × TestInfo))) (m : Method)
    (t : TestInfo) : List (Option String × List (Method × TestInfo)) :=
  if groups.any (·.1 == t.category) then
    groups.map fun g => if g.1 == t.category then (g.1, g.2 ++ [(m, t)]) else g
  else groups ++ [(t.category, [(m, t)])]

/-- The uncategorised group first, then one per category in order of first appearance. -/
def testGroups (ms : List Method) : List (Option String × List (Method × TestInfo)) :=
  ms.foldl (fun groups m =>
    match m.test with
    | some t => fileTest groups m t
    | none => groups) [(none, [])]

def testCall (names : TestFunctions) (m : Method) (t : TestInfo) : Node :=
  let body := Node.func none [] (m.body.getD [])
  let args := [Node.string t.description] ++
    (match t.expectedAssertions with | some n => [Node.numeric (toString n)] | none => []) ++
    [Node.methodCall body "bind" [.this]]
  .exprStmt (.call (.ident (if t.isAsync then names.asyncTest else names.test)) args)

def runnerBody (names : TestFunctions) (ms : List Method) : List Node :=
  (testGroups ms).flatMap fun (category, tests) =>
    (match category with
     | some c => [Node.exprStmt (.call (.ident names.beginCategory) [.string c])]
     | none => []) ++
    tests.map fun (m, t) => testCall names m t

def withTestRunner (opts : Options) (b : ClassBody) : ClassBody :=
  let runner : Method :=
    { name := opts.testRunnerMethod, body := some (runnerBody opts.testFunctions b.instanceMethods) }
  { b with instanceMethods := b.instanceMethods.filter (·.test.isNone) ++ [runner] }

end ProtoLayout.Layout
