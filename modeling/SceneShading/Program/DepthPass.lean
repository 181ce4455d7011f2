import SceneShading.Graph.Builder
import SceneShading.Program.Roles

/-!
# Depth pass

The fragment graph of a surface that is drawn into a shadow map: the depth of the fragment, encoded
for the filter of the shadows. Materials, lights and textures play no part.
-/

namespace SceneShading.DepthPass

open Builder

/-- The encoded depth, and the roots of its graph. -/
def build (cast : ShadowCast) (name : String) : Builder (List NodeId) := do
  let color ← node (.output .fragColor)
  let exponent0 ← uniform "float" "exponent0"
  let exponent1 ← uniform "float" "exponent1"
  let depthRange ← uniform "vec4" "uShadowDepthRange"
  let eye ← varying "vec4" "vViewVertex"
  let _ ← operation (.shadowCast cast.config)
    (Pins.inputs [("exponent0", exponent0), ("exponent1", exponent1),
      ("shadowDepthRange", depthRange), ("fragEye", eye)])
    (.named [("color", color)])
  let name ← programName name
  return [color, name]

end SceneShading.DepthPass
