import Hyperscript.Property.Info
import Hyperscript.Space

namespace Hyperscript

namespace Traits

def text : Traits := {}

def flag : Traits := { boolean := true }

/-- A flag that changes while the element lives, so it is set on the element object. -/
def state : Traits := { boolean := true, mustUseProperty := true }

def words : Traits := { spaceSeparated := true }

def commas : Traits := { commaSeparated := true }

def numeric : Traits := { number := true }

def numbers : Traits := { number := true, commaSeparated := true }

end Traits

namespace Info

def lowerSpelling (property : String) : String :=
  String.ofList (property.toList.map Char.toLower)

/-- `ariaValueNow` is written `aria-valuenow`. -/
def ariaSpelling (property : String) : String :=
  "aria-" ++ String.ofList ((property.toList.drop 4).map Char.toLower)

/-- Properties whose attribute name follows from the property name. -/
def named (spelling : String → String) (traits : Traits) (properties : List String) : List Info :=
  properties.map fun property =>
    { toTraits := traits, propertyName := property, attributeName := spelling property, defined := true }

/-- Properties with an attribute name of their own. -/
def paired (traits : Traits) (names : List (String × String)) : List Info :=
  names.map fun name => { toTraits := traits, propertyName := name.1, attributeName := name.2, defined := true }

/-- The names of the XML vocabularies, known in both spaces. -/
def foreignRows : List Info :=
  paired .text
    [("xmlBase", "xml:base"), ("xmlLang", "xml:lang"), ("xmlSpace", "xml:space"),
     ("xLinkActuate", "xlink:actuate"), ("xLinkArcRole", "xlink:arcrole"), ("xLinkHref", "xlink:href"),
     ("xLinkRole", "xlink:role"), ("xLinkShow", "xlink:show"), ("xLinkTitle", "xlink:title"),
     ("xLinkType", "xlink:type"), ("xmlns", "xmlns"), ("xmlnsXLink", "xmlns:xlink")]

/-- The names of the accessibility vocabulary, known in both spaces. -/
def ariaRows : List Info :=
  named ariaSpelling .text
    ["ariaActiveDescendant", "ariaAtomic", "ariaAutoComplete", "ariaBusy", "ariaChecked", "ariaCurrent",
     "ariaDetails", "ariaDisabled", "ariaErrorMessage", "ariaExpanded", "ariaGrabbed", "ariaHasPopup",
     "ariaHidden", "ariaInvalid", "ariaKeyShortcuts", "ariaLabel", "ariaLive", "ariaModal", "ariaMultiLine",
     "ariaMultiSelectable", "ariaOrientation", "ariaPlaceholder", "ariaPressed", "ariaReadOnly",
     "ariaRelevant", "ariaRequired", "ariaSelected", "ariaSort", "ariaValueText"] ++
  paired .text
    [("role", "role")] ++
  named ariaSpelling .words
    ["ariaControls", "ariaDescribedBy", "ariaDropEffect", "ariaFlowTo", "ariaLabelledBy", "ariaOwns",
     "ariaRoleDescription"] ++
  named ariaSpelling .numeric
    ["ariaColCount", "ariaColIndex", "ariaColSpan", "ariaLevel", "ariaPosInSet", "ariaRowCount",
     "ariaRowIndex", "ariaRowSpan", "ariaSetSize", "ariaValueMax", "ariaValueMin", "ariaValueNow"]

def htmlRows : List Info :=
  named lowerSpelling .text
    ["abbr", "action", "allow", "alt", "as", "autoCapitalize", "charSet", "cite", "classId", "colSpan",
     "content", "contentEditable", "crossOrigin", "data", "dataType", "dateTime", "decoding", "dir", "dirName",
     "download", "draggable", "encType", "enterKeyHint", "form", "formAction", "formEncType", "formMethod",
     "formTarget", "href", "hrefLang", "id", "imageSizes", "imageSrcSet", "inputMode", "integrity", "is",
     "itemId", "kind", "label", "lang", "language", "list", "loading", "manifest", "max", "media", "method",
     "min", "name", "nonce", "pattern", "placeholder", "poster", "preload", "referrerPolicy", "scope", "shape",
     "sizes", "slot", "spellCheck", "src", "srcDoc", "srcLang", "srcSet", "step", "style", "target", "title",
     "translate", "type", "useMap", "value", "wrap"] ++
  named lowerSpelling .flag
    ["allowFullScreen", "allowPaymentRequest", "allowUserMedia", "async", "autoFocus", "autoPlay", "capture",
     "controls", "default", "defer", "disabled", "disablePictureInPicture", "disableRemotePlayback",
     "formNoValidate", "hidden", "inert", "isMap", "itemScope", "loop", "noModule", "noValidate", "open",
     "playsInline", "readOnly", "required", "reversed", "scoped", "seamless", "typeMustMatch"] ++
  named lowerSpelling .state
    ["checked", "multiple", "muted", "selected"] ++
  named lowerSpelling .words
    ["accessKey", "autoComplete", "controlsList", "headers", "itemProp", "itemRef", "itemType", "ping", "rel",
     "sandbox"] ++
  paired .words
    [("acceptCharset", "accept-charset"), ("className", "class"), ("htmlFor", "for"),
     ("httpEquiv", "http-equiv")] ++
  named lowerSpelling .commas
    ["accept"] ++
  named lowerSpelling .numeric
    ["cols", "height", "high", "low", "maxLength", "minLength", "optimum", "rows", "rowSpan", "size", "span",
     "start", "tabIndex", "width"] ++
  named lowerSpelling .numbers
    ["coords"]

def svgRows : List Info :=
  named id .text
    ["clipPathUnits", "color", "cx", "cy", "d", "display", "dx", "dy", "fill", "filter", "fx", "fy",
     "gradientTransform", "gradientUnits", "height", "href", "id", "lang", "markerHeight", "markerUnits",
     "markerWidth", "mask", "offset", "opacity", "orient", "patternUnits", "points", "preserveAspectRatio",
     "r", "refX", "refY", "rx", "ry", "stroke", "style", "target", "transform", "type", "version", "viewBox",
     "visibility", "width", "x", "x1", "x2", "y", "y1", "y2"] ++
  paired .text
    [("clipPath", "clip-path"), ("clipRule", "clip-rule"), ("dominantBaseline", "dominant-baseline"),
     ("fillRule", "fill-rule"), ("fontFamily", "font-family"), ("fontSize", "font-size"),
     ("fontStyle", "font-style"), ("fontWeight", "font-weight"), ("markerEnd", "marker-end"),
     ("markerMid", "marker-mid"), ("markerStart", "marker-start"), ("stopColor", "stop-color"),
     ("stopOpacity", "stop-opacity"), ("strokeDashOffset", "stroke-dashoffset"),
     ("strokeLineCap", "stroke-linecap"), ("strokeLineJoin", "stroke-linejoin"),
     ("strokeWidth", "stroke-width"), ("tabIndex", "tabindex"), ("textAnchor", "text-anchor")] ++
  paired .words
    [("className", "class"), ("typeOf", "typeof")] ++
  paired .commas
    [("strokeDashArray", "stroke-dasharray")] ++
  named id .numeric
    ["pathLength"] ++
  paired .numeric
    [("fillOpacity", "fill-opacity"), ("strokeMiterLimit", "stroke-miterlimit"),
     ("strokeOpacity", "stroke-opacity")]

/-- All properties that a space knows. -/
def table : Space → List Info
  | .html => foreignRows ++ ariaRows ++ htmlRows
  | .svg => foreignRows ++ ariaRows ++ svgRows

/-- The letter as names are compared. No letter but `A` to `Z` and the Kelvin sign has a lower-case form
in ASCII, and the table is written in ASCII, so no other letter has to be folded. -/
def foldLetter (c : Char) : Char :=
  if c = '\u212a' then 'k' else c.toLower

def foldCase (name : String) : List Char :=
  name.toList.map foldLetter

/-- The row that has `name` as its property or its attribute, in any letter case. -/
def known? (space : Space) (name : String) : Option Info :=
  (table space).find? fun info =>
    foldCase info.propertyName = foldCase name || foldCase info.attributeName = foldCase name

end Info

end Hyperscript
