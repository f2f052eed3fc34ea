namespace Hyperscript.MarkupReader

/-- The SVG tags that are not written in lower case throughout. -/
def svgTags : List String :=
  ["altGlyph", "altGlyphDef", "altGlyphItem", "animateColor", "animateMotion", "animateTransform", "clipPath",
   "feBlend", "feColorMatrix", "feComponentTransfer", "feComposite", "feConvolveMatrix", "feDiffuseLighting",
   "feDisplacementMap", "feDistantLight", "feDropShadow", "feFlood", "feFuncA", "feFuncB", "feFuncG",
   "feFuncR", "feGaussianBlur", "feImage", "feMerge", "feMergeNode", "feMorphology", "feOffset",
   "fePointLight", "feSpecularLighting", "feSpotLight", "feTile", "feTurbulence", "foreignObject", "glyphRef",
   "linearGradient", "radialGradient", "textPath"]

/-- The SVG attributes that are not written in lower case throughout. -/
def svgAttributes : List String :=
  ["attributeName", "attributeType", "baseFrequency", "baseProfile", "calcMode", "clipPathUnits",
   "diffuseConstant", "edgeMode", "filterUnits", "glyphRef", "gradientTransform", "gradientUnits",
   "kernelMatrix", "kernelUnitLength", "keyPoints", "keySplines", "keyTimes", "lengthAdjust",
   "limitingConeAngle", "markerHeight", "markerUnits", "markerWidth", "maskContentUnits", "maskUnits",
   "numOctaves", "pathLength", "patternContentUnits", "patternTransform", "patternUnits", "pointsAtX",
   "pointsAtY", "pointsAtZ", "preserveAlpha", "preserveAspectRatio", "primitiveUnits", "refX", "refY",
   "repeatCount", "repeatDur", "requiredExtensions", "requiredFeatures", "specularConstant",
   "specularExponent", "spreadMethod", "startOffset", "stdDeviation", "stitchTiles", "surfaceScale",
   "systemLanguage", "tableValues", "targetX", "targetY", "textLength", "viewBox", "viewTarget",
   "xChannelSelector", "yChannelSelector", "zoomAndPan"]

/-- The attributes that belong to another vocabulary inside SVG, with their names there. HTML does not
count `xml:base` among them, so that one keeps its whole name. -/
def foreignNames : List (String × String) :=
  [("xlink:actuate", "actuate"), ("xlink:arcrole", "arcrole"), ("xlink:href", "href"), ("xlink:role", "role"),
   ("xlink:show", "show"), ("xlink:title", "title"), ("xlink:type", "type"), ("xml:lang", "lang"),
   ("xml:space", "space"), ("xmlns:xlink", "xlink")]

def lowerCase (name : String) : String :=
  String.ofList (name.toList.map Char.toLower)

/-- Give a name that was read in lower case its own spelling back. -/
def restoreCase (spellings : List String) (name : String) : String :=
  (spellings.find? fun spelling => lowerCase spelling = name).getD name

def svgAttribute (name : String) : String :=
  match foreignNames.lookup name with
  | some foreign => foreign
  | none => restoreCase svgAttributes name

/-- Content of these SVG elements is HTML again. -/
def holdsHtml (tag : String) : Bool :=
  tag = "foreignObject" || tag = "desc" || tag = "title"

/-- The HTML elements that have no content and no closing tag. -/
def isVoid (tag : String) : Bool :=
  tag = "br" || tag = "hr" || tag = "img" || tag = "input"

end Hyperscript.MarkupReader
