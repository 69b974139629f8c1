import TagSearch.SearchError

/-! The page menu: links to the pages around the current one, between links to the first and the last page. -/
namespace TagSearch

/-- A numbered link; pages count from 1. -/
structure PageLink where
  page : UInt64
  offset : UInt64
  current : Bool
deriving Repr, DecidableEq

structure PageMenu where
  pages : List PageLink
  /-- The offset of the last page, none when there is nothing to page. -/
  lastOffset : Option UInt64
deriving Repr, DecidableEq

namespace PageMenu

/-- How many pages are shown on either side of the current one. -/
def spread : UInt64 := 3

/-- The sum, or the largest number if the sum is larger. -/
def saturatingAdd (a b : UInt64) : UInt64 :=
  if a ≤ UInt64.ofNat (UInt64.size - 1) - b then a + b else UInt64.ofNat (UInt64.size - 1)

/-- The difference, or 0 if it is negative. -/
def saturatingSub (a b : UInt64) : UInt64 := if b ≤ a then a - b else 0

def divideUp (a b : UInt64) : UInt64 :=
  if a % b = 0 then a / b else a / b + 1

/-- The numbers from the first to the last, none if the last is smaller. -/
def upTo (first last : UInt64) : List UInt64 :=
  if first ≤ last then
    (List.range ((last - first).toNat + 1)).map fun i => first + UInt64.ofNat i
  else []

/-- The menu of a result of `max` entries that is shown from `offset` on, `stride` to a page. -/
def build (offset stride max : UInt64) : Except SearchError PageMenu :=
  if stride = 0 ∨ max < offset then .error (.invalidPageWindow offset stride max)
  else if max = 0 then .ok ⟨[⟨1, 0, true⟩], none⟩
  else
    let last := divideUp max stride
    let current := saturatingAdd (offset / stride) 1
    let firstShown := Max.max (saturatingSub current spread) 1
    let lastShown := Min.min last (saturatingAdd current spread)
    .ok ⟨(upTo firstShown lastShown).map fun page => ⟨page, (page - 1) * stride, page = current⟩,
      some ((last - 1) * stride)⟩

def currentPage (menu : PageMenu) : Option UInt64 :=
  (menu.pages.find? PageLink.current).map PageLink.page

def renderLink (link : PageLink) : String :=
  if link.current then "[" ++ toString link.page ++ "]" else toString link.page

def render (menu : PageMenu) : String :=
  let pages := String.intercalate ", " (menu.pages.map renderLink)
  match menu.lastOffset with
  | some _ => "<< " ++ pages ++ " >>"
  | none => pages

end PageMenu
end TagSearch
