import ClassFormat.Token

namespace ClassFormat

/-- What a class is about. -/
inductive Category where
  | layout
  | sizing
  | spacing
  | typography
  | background
  | borders
  | effects
  | filters
  | interactivity
  | svg
  | accessibility
  | transforms
  | other
  deriving DecidableEq, Repr

namespace Category

def name : Category → String
  | layout => "layout"
  | sizing => "sizing"
  | spacing => "spacing"
  | typography => "typography"
  | background => "background"
  | borders => "borders"
  | effects => "effects"
  | filters => "filters"
  | interactivity => "interactivity"
  | svg => "svg"
  | accessibility => "accessibility"
  | transforms => "transforms"
  | other => "other"

def all : List Category :=
  [layout, sizing, spacing, typography, background, borders, effects, filters, interactivity, svg,
    accessibility, transforms, other]

/-- The order in which categories are written; transforms come before interactivity. -/
def emitOrder : List Category :=
  [layout, sizing, spacing, typography, background, borders, effects, filters, transforms,
    interactivity, svg, accessibility, other]

theorem mem_emitOrder (c : Category) : c ∈ emitOrder := by
  cases c <;> decide

theorem nodup_emitOrder : emitOrder.Nodup := by
  decide

/-- The stems of each category, in the order in which they are tried. -/
def rules : List (Category × List String) :=
  [(layout,
      ["container", "box-", "block", "inline", "flex", "grid", "table", "hidden", "float-",
        "clear-", "object-", "overflow-", "overscroll-", "static", "fixed", "absolute",
        "relative", "sticky", "isolate", "isolation-", "inset-", "top-", "right-", "bottom-",
        "left-", "visible", "invisible", "z-", "items-", "justify-", "self-"]),
    (sizing, ["w-", "h-", "min-w-", "min-h-", "max-w-", "max-h-", "size-"]),
    (spacing,
      ["p-", "px-", "py-", "pt-", "pr-", "pb-", "pl-", "ps-", "pe-", "m-", "mx-", "my-", "mt-",
        "mr-", "mb-", "ml-", "ms-", "me-", "space-"]),
    (typography,
      ["font-", "text-", "antialiased", "subpixel-", "italic", "not-italic", "normal-nums",
        "ordinal", "slashed-zero", "lining-nums", "oldstyle-nums", "proportional-nums",
        "tabular-nums", "diagonal-fractions", "stacked-fractions", "leading-", "tracking-",
        "line-clamp-", "break-", "truncate", "text-ellipsis", "text-clip", "hyphens-",
        "uppercase", "lowercase", "capitalize", "normal-case", "underline", "overline",
        "line-through", "no-underline", "decoration-", "underline-offset-", "indent-", "align-",
        "whitespace-", "text-wrap", "text-nowrap", "text-balance", "text-pretty"]),
    (background, ["bg-", "from-", "via-", "to-", "background-"]),
    (borders, ["border", "rounded", "divide-", "outline-", "ring-"]),
    (effects,
      ["shadow-", "opacity-", "mix-", "blur-", "brightness-", "contrast-", "grayscale",
        "hue-rotate-", "invert", "saturate-", "sepia", "backdrop-", "transition", "duration-",
        "ease-", "delay-", "animate-"]),
    (filters, ["filter", "backdrop-filter"]),
    (interactivity,
      ["appearance-", "cursor-", "caret-", "pointer-events-", "resize-", "scroll-", "snap-",
        "touch-", "select-", "will-change-"]),
    (svg, ["fill-", "stroke-"]),
    (accessibility, ["sr-only", "not-sr-only", "forced-color-adjust-"]),
    (transforms, ["scale-", "rotate-", "translate-", "skew-", "transform", "origin-"])]

/-- The order in which categories are tried; `other` takes what is left and has no stem. -/
def matchOrder : List Category := rules.map Prod.fst

def stems : List (Category × List Text) :=
  rules.map fun rule => (rule.1, rule.2.map String.toList)

/-- The first category with a stem that fits the base. A stem fits a base that starts with it, and
also the base that is the stem without its final dash. -/
def ofBase (base : Text) : Category :=
  let padded := base ++ ['-']
  match stems.find? fun rule => rule.2.any fun stem => stem.isPrefixOf padded with
  | some rule => rule.1
  | none => other

def ofToken (t : Token) : Category := ofBase t.categoryBase

end Category

end ClassFormat
