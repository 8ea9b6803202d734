/-
**From samples to declarations.**

A sample is observed, the objects of its graph are named, explicit references are resolved, and the
declarations are rendered.
-/

import SampleShapes.Rendering
import SampleShapes.Resolution

namespace SampleShapes

/-- The declarations for a sample. -/
def declarations (options : Options) (sample : Json) : Except Failure Resolution := do
  let graph ← ShapeGraph.infer options sample
  graph.resolve (Naming.ofGraph graph options.rootName) options.references

/-- The rendered declarations for a sample, the root first. -/
def renderedDeclarations (options : Options) (sample : Json) : Except Failure (List String) := do
  return (← declarations options sample).render options.style

end SampleShapes
