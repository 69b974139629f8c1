import Mathlib.Algebra.Order.Floor.Div
import Mathlib.Order.Bounds.Defs
import TagSearch.PageMenu
import TagSearch.Proofs.Search.Window

/-! The links of a page menu. They count consecutive pages around the current one, and every offset lies before the end
of the result. No number on the way to a menu is too large for 64 bits. -/
namespace TagSearch
namespace PageMenu

variable {a b offset stride max page : UInt64} {menu : PageMenu}

lemma toNat_saturatingAdd (a b : UInt64) : (saturatingAdd a b).toNat = min (a.toNat + b.toNat) (2 ^ 64 - 1) := by
  have ha := a.toNat_lt
  have hb := b.toNat_lt
  have hroom : (UInt64.ofNat (UInt64.size - 1) - b).toNat = 2 ^ 64 - 1 - b.toNat :=
    UInt64.toNat_sub_of_le _ _ (UInt64.le_iff_toNat_le.mpr (Nat.le_pred_of_lt hb))
  simp only [saturatingAdd, UInt64.le_iff_toNat_le, hroom]
  split
  · rw [UInt64.toNat_add, Nat.mod_eq_of_lt (by omega), Nat.min_eq_left (by omega)]
  · rw [Nat.min_eq_right (by omega)]
    rfl

lemma toNat_saturatingSub (a b : UInt64) : (saturatingSub a b).toNat = a.toNat - b.toNat := by
  simp only [saturatingSub, UInt64.le_iff_toNat_le]
  split
  · rename_i h
    exact UInt64.toNat_sub_of_le _ _ (UInt64.le_iff_toNat_le.mpr h)
  · rw [UInt64.toNat_zero]
    omega

lemma ceilDiv_eq_ite (n : ℕ) {d : ℕ} (h : 0 < d) : n ⌈/⌉ d = if n % d = 0 then n / d else n / d + 1 := by
  refine eq_of_forall_ge_iff fun c => ?_
  rw [ceilDiv_le_iff_le_mul h]
  split
  · rename_i hmod
    obtain ⟨q, rfl⟩ := Nat.dvd_of_mod_eq_zero hmod
    rw [Nat.mul_div_cancel_left _ h, Nat.mul_le_mul_left_iff h]
  · rename_i hmod
    have hne : n ≠ d * c := fun heq => hmod (heq ▸ Nat.mul_mod_right d c)
    rw [Nat.succ_le_iff, Nat.div_lt_iff_lt_mul h, Nat.mul_comm c d]
    omega

lemma map_toNat_upTo (first last : UInt64) :
    (upTo first last).map UInt64.toNat = List.range' first.toNat (last.toNat + 1 - first.toNat) := by
  have hlast := last.toNat_lt
  simp only [upTo, UInt64.le_iff_toNat_le]
  split
  · rename_i h
    have hdiff := UInt64.toNat_sub_of_le _ _ (UInt64.le_iff_toNat_le.mpr h)
    rw [List.map_map, hdiff, List.range'_eq_map_range, Nat.sub_add_comm h]
    refine List.map_congr_left fun i hi => ?_
    have hi := List.mem_range.mp hi
    rw [Function.comp_apply, UInt64.toNat_add, UInt64.toNat_ofNat', Nat.mod_eq_of_lt (a := i) (by omega),
      Nat.mod_eq_of_lt (by omega)]
  · rw [Nat.sub_eq_zero_of_le (by omega)]
    rfl

/-- How many pages a result has. -/
def pageCount (max stride : UInt64) : ℕ := max.toNat ⌈/⌉ stride.toNat

/-- The page that begins at or before an offset, as far as there is a number for it. -/
def pageAt (offset stride : UInt64) : ℕ := min (offset.toNat / stride.toNat + 1) (2 ^ 64 - 1)

/-- The first page of a menu. -/
def firstShown (offset stride : UInt64) : ℕ := Nat.max 1 (pageAt offset stride - 3)

/-- The last page of a menu. -/
def lastShown (offset stride max : UInt64) : ℕ := min (pageCount max stride) (pageAt offset stride + 3)

/-- A page belongs to a result when it begins before the end. -/
lemma lt_pageCount (h : 0 < stride) {n : ℕ} : n < pageCount max stride ↔ n * stride.toNat < max.toNat := by
  rw [← Nat.not_le, pageCount, ceilDiv_le_iff_le_mul (UInt64.lt_iff_toNat_lt.mp h), Nat.not_le, Nat.mul_comm]

lemma pageCount_pos (h : 0 < stride) (hmax : 0 < max) : 0 < pageCount max stride := by
  rw [lt_pageCount h, Nat.zero_mul]
  exact UInt64.lt_iff_toNat_lt.mp hmax

lemma pageCount_lt (h : 0 < stride) : pageCount max stride < 2 ^ 64 := by
  have hle : pageCount max stride ≤ max.toNat :=
    (ceilDiv_le_iff_le_mul (UInt64.lt_iff_toNat_lt.mp h)).mpr (Nat.le_mul_of_pos_left _ (UInt64.lt_iff_toNat_lt.mp h))
  exact Nat.lt_of_le_of_lt hle max.toNat_lt

lemma toNat_divideUp (h : 0 < stride) : (divideUp max stride).toNat = pageCount max stride := by
  have hlt := @pageCount_lt stride max h
  rw [pageCount, ceilDiv_eq_ite _ (UInt64.lt_iff_toNat_lt.mp h)] at hlt ⊢
  simp only [divideUp, ← UInt64.toNat_inj, UInt64.toNat_mod, UInt64.toNat_zero]
  split
  · exact UInt64.toNat_div _ _
  · rename_i hmod
    rw [if_neg hmod] at hlt
    rw [UInt64.toNat_add, UInt64.toNat_div, UInt64.toNat_one, Nat.mod_eq_of_lt hlt]

/-- The current page is one of the pages, or the one behind them. -/
lemma pageAt_le (h : 0 < stride) (hle : offset ≤ max) : pageAt offset stride ≤ pageCount max stride + 1 := by
  have hmax : max.toNat ≤ pageCount max stride * stride.toNat :=
    Nat.not_lt.mp ((lt_pageCount h).not.mp (Nat.lt_irrefl _))
  have hpage : offset.toNat / stride.toNat ≤ pageCount max stride :=
    Nat.div_le_of_le_mul (Nat.mul_comm _ _ ▸ Nat.le_trans (UInt64.le_iff_toNat_le.mp hle) hmax)
  exact Nat.le_trans (Nat.min_le_left _ _) (Nat.succ_le_succ hpage)

lemma firstShown_le_lastShown (h : 0 < stride) (hle : offset ≤ max) (hmax : 0 < max) :
    firstShown offset stride ≤ lastShown offset stride max := by
  have hpos := pageCount_pos h hmax
  have hpage := pageAt_le h hle
  rw [firstShown, lastShown, Nat.max_le, Nat.le_min, Nat.le_min]
  omega

/-- The offset of a page is a product without loss, and it lies before the end. -/
lemma toNat_offset (h : 0 < stride) (hfirst : 1 ≤ page.toNat) (hlast : page.toNat ≤ pageCount max stride) :
    (page - 1).toNat = page.toNat - 1 ∧ ((page - 1) * stride).toNat = (page.toNat - 1) * stride.toNat ∧
      (page.toNat - 1) * stride.toNat < max.toNat := by
  have hbefore : (page - 1).toNat = page.toNat - 1 := UInt64.toNat_sub_of_le _ _ (UInt64.le_iff_toNat_le.mpr hfirst)
  have hlt : (page.toNat - 1) * stride.toNat < max.toNat := (lt_pageCount h).mp (by omega)
  refine ⟨hbefore, ?_, hlt⟩
  rw [UInt64.toNat_mul, hbefore, Nat.mod_eq_of_lt (Nat.lt_trans hlt max.toNat_lt)]

lemma build_eq_error {error : SearchError} :
    build offset stride max = .error error ↔
      (stride = 0 ∨ max < offset) ∧ error = .invalidPageWindow offset stride max := by
  rw [build]
  split
  · rename_i h
    rw [and_iff_right h, Except.error.injEq, eq_comm]
  · rename_i h
    split <;> simp [h]

/-- The current page as a number of 64 bits. -/
def currentNumber (offset stride : UInt64) : UInt64 := saturatingAdd (offset / stride) 1

/-- The pages of a menu as numbers of 64 bits. -/
def shown (offset stride max : UInt64) : List UInt64 :=
  upTo (Max.max (saturatingSub (currentNumber offset stride) spread) 1)
    (Min.min (divideUp max stride) (saturatingAdd (currentNumber offset stride) spread))

def linkTo (offset stride page : UInt64) : PageLink := ⟨page, (page - 1) * stride, page = currentNumber offset stride⟩

/-- The menu of a result that has entries. -/
lemma build_eq_ok (hmax : 0 < max) (h : build offset stride max = .ok menu) :
    0 < stride ∧ offset ≤ max ∧
      menu = ⟨(shown offset stride max).map (linkTo offset stride), some ((divideUp max stride - 1) * stride)⟩ := by
  rw [build] at h
  split at h
  · cases h
  · rename_i hwindow
    rw [if_neg (UInt64.ne_of_lt hmax).symm] at h
    cases h
    obtain ⟨hstride, hle⟩ := not_or.mp hwindow
    exact ⟨UInt64.pos_iff_ne_zero.mpr hstride, UInt64.not_lt.mp hle, rfl⟩

lemma toNat_currentNumber (offset stride : UInt64) : (currentNumber offset stride).toNat = pageAt offset stride := by
  rw [currentNumber, toNat_saturatingAdd, UInt64.toNat_div]
  rfl

/-- A menu counts from its first to its last page. -/
lemma map_toNat_shown (h : 0 < stride) : (shown offset stride max).map UInt64.toNat =
    List.range' (firstShown offset stride) (lastShown offset stride max + 1 - firstShown offset stride) := by
  have hspread : spread.toNat = 3 := rfl
  have hfirst : (Max.max (saturatingSub (currentNumber offset stride) spread) 1).toNat = firstShown offset stride := by
    rw [UInt64.toNat_max, toNat_saturatingSub, toNat_currentNumber, hspread, UInt64.toNat_one, firstShown, Nat.max_comm]
  have hlast : (Min.min (divideUp max stride) (saturatingAdd (currentNumber offset stride) spread)).toNat =
      lastShown offset stride max := by
    have hlt := @pageCount_lt stride max h
    rw [UInt64.toNat_min, toNat_divideUp h, toNat_saturatingAdd, toNat_currentNumber, hspread, lastShown]
    omega
  rw [shown, map_toNat_upTo, hfirst, hlast]

lemma mem_shown (h : 0 < stride) : page ∈ shown offset stride max ↔
    firstShown offset stride ≤ page.toNat ∧ page.toNat ≤ lastShown offset stride max := by
  have hmem : page ∈ shown offset stride max ↔ page.toNat ∈ (shown offset stride max).map UInt64.toNat :=
    (List.mem_map_of_injective fun _ _ => UInt64.toNat_inj.mp).symm
  rw [hmem, map_toNat_shown h, List.mem_range'_1]
  omega

lemma shown_bounds (h : 0 < stride) (hpage : page ∈ shown offset stride max) :
    1 ≤ page.toNat ∧ page.toNat ≤ pageCount max stride := by
  obtain ⟨hfirst, hlast⟩ := (mem_shown h).mp hpage
  exact ⟨Nat.le_trans (Nat.le_max_left _ _) hfirst, Nat.le_trans hlast (Nat.min_le_left _ _)⟩

/-- The sum of two numbers, none if it does not fit. -/
def sum? (a b : UInt64) : Option UInt64 := if a.toNat + b.toNat < UInt64.size then some (a + b) else none

/-- The difference of two numbers, none if it is negative. -/
def difference? (a b : UInt64) : Option UInt64 := if b ≤ a then some (a - b) else none

/-- The product of two numbers, none if it does not fit. -/
def product? (a b : UInt64) : Option UInt64 := if a.toNat * b.toNat < UInt64.size then some (a * b) else none

def divideUp? (a b : UInt64) : Option UInt64 := if a % b = 0 then some (a / b) else sum? (a / b) 1

def offset? (stride page : UInt64) : Option UInt64 := do product? (← difference? page 1) stride

def linkTo? (stride current page : UInt64) : Option PageLink := do
  let offset ← offset? stride page
  return ⟨page, offset, page = current⟩

/-- The menu of a result that has entries, none if a number on the way to it does not fit. -/
def build? (offset stride max : UInt64) : Option PageMenu := do
  let last ← divideUp? max stride
  let current := saturatingAdd (offset / stride) 1
  let pages ← (upTo (Max.max (saturatingSub current spread) 1) (Min.min last (saturatingAdd current spread))).mapM
    (linkTo? stride current)
  let lastOffset ← offset? stride last
  return ⟨pages, some lastOffset⟩

lemma divideUp?_eq (h : 0 < stride) : divideUp? max stride = some (divideUp max stride) := by
  have hlt := @pageCount_lt stride max h
  rw [pageCount, ceilDiv_eq_ite _ (UInt64.lt_iff_toNat_lt.mp h)] at hlt
  simp only [divideUp?, divideUp, ← UInt64.toNat_inj, UInt64.toNat_mod, UInt64.toNat_zero]
  split
  · rfl
  · rename_i hmod
    rw [if_neg hmod] at hlt
    rw [sum?, UInt64.toNat_div, UInt64.toNat_one]
    exact if_pos hlt

lemma offset?_eq (h : 0 < stride) (hfirst : 1 ≤ page.toNat) (hlast : page.toNat ≤ pageCount max stride) :
    offset? stride page = some ((page - 1) * stride) := by
  obtain ⟨hbefore, _, hlt⟩ := toNat_offset h hfirst hlast
  have hle : 1 ≤ page := UInt64.le_iff_toNat_le.mpr hfirst
  have hfits : (page - 1).toNat * stride.toNat < UInt64.size := hbefore ▸ Nat.lt_trans hlt max.toNat_lt
  simp only [offset?, difference?, product?, if_pos hle, if_pos hfits, Option.bind_eq_bind, Option.bind_some]

/-- No number on the way to a menu is too large or negative. -/
lemma build?_eq (hmax : 0 < max) (h : build offset stride max = .ok menu) : build? offset stride max = some menu := by
  obtain ⟨hstride, _, rfl⟩ := build_eq_ok hmax h
  have hpages : (shown offset stride max).mapM (linkTo? stride (currentNumber offset stride)) =
      some ((shown offset stride max).map (linkTo offset stride)) := by
    refine mapM_eq_some fun page hpage => ?_
    obtain ⟨hfirst, hlast⟩ := shown_bounds hstride hpage
    rw [linkTo?, offset?_eq hstride hfirst hlast]
    rfl
  have hlast : offset? stride (divideUp max stride) = some ((divideUp max stride - 1) * stride) := by
    have hcount := @toNat_divideUp stride max hstride
    exact offset?_eq hstride (hcount ▸ pageCount_pos hstride hmax) (Nat.le_of_eq hcount)
  rw [build?, divideUp?_eq hstride]
  change ((shown offset stride max).mapM (linkTo? stride (currentNumber offset stride)) >>= fun pages =>
    offset? stride (divideUp max stride) >>= fun last => some (PageMenu.mk pages (some last))) = _
  rw [hpages, hlast]
  rfl

/-- From an offset on, every search that finds so many entries in all shows some of them. -/
def ShowsSome (total start : UInt64) : Prop :=
  ∀ (s : Store) (predicates : List Predicate) (stride : UInt64), s.Reachable →
    (∀ page, (Search.images predicates start stride (Database.ready s).source).result = .ok page →
      page.total = total → page.items ≠ []) ∧
    ∀ page, (Search.collections predicates start stride (Database.ready s).source).result = .ok page →
      page.total = total → page.items ≠ []

lemma showsSome_of_lt {total start : UInt64} (h : start < total) : ShowsSome total start := by
  intro s predicates stride hs
  rw [UInt64.lt_iff_toNat_lt] at h
  constructor
  · intro page hpage htotal
    obtain ⟨entries, _, _, rfl⟩ := Store.page_of_images hs.consistent hpage
    refine slice_ne_nil (Nat.lt_of_lt_of_le h ?_)
    rw [← htotal, UInt64.toNat_ofNat']
    exact Nat.mod_le _ _
  · intro page hpage htotal
    obtain ⟨entries, _, _, rfl⟩ := Store.page_of_collections hs.consistent hpage
    refine slice_ne_nil (Nat.lt_of_lt_of_le h ?_)
    rw [← htotal, UInt64.toNat_ofNat']
    exact Nat.mod_le _ _

/-- The last page begins at the greatest multiple of the stride before the end. -/
lemma isGreatest_lastOffset (h : 0 < stride) (hmax : 0 < max) :
    IsGreatest {n | stride.toNat ∣ n ∧ n < max.toNat} ((divideUp max stride - 1) * stride).toNat := by
  have hcount := @toNat_divideUp stride max h
  have hpos := pageCount_pos h hmax
  obtain ⟨_, hoffset, hlt⟩ := toNat_offset h (hcount ▸ hpos) (Nat.le_of_eq hcount)
  rw [hcount] at hoffset hlt
  rw [hoffset]
  refine ⟨⟨Nat.dvd_mul_left _ _, hlt⟩, ?_⟩
  rintro n ⟨⟨k, rfl⟩, hk⟩
  rw [Nat.mul_comm] at hk ⊢
  have hpage := (lt_pageCount h).mpr hk
  exact Nat.mul_le_mul_right _ (by omega)

/-- A menu is refused when its stride is 0 or its offset lies behind the end. Of a result that has entries it links the
pages around the current one, one after the other and at least one of them, each at the offset where it begins, and the
last page. -/
theorem links_around_current (offset stride max : UInt64) :
    (∀ error, build offset stride max = .error error ↔
      (stride = 0 ∨ max < offset) ∧ error = .invalidPageWindow offset stride max) ∧
    ∀ menu, build offset stride max = .ok menu → 0 < max →
      build? offset stride max = some menu ∧ menu.pages ≠ [] ∧
      (menu.pages.map fun link => link.page.toNat) =
        List.range' (firstShown offset stride) (lastShown offset stride max + 1 - firstShown offset stride) ∧
      (∀ link ∈ menu.pages, link.offset.toNat = (link.page.toNat - 1) * stride.toNat ∧ link.offset < max ∧
        ShowsSome max link.offset) ∧
      ∃ last, menu.lastOffset = some last ∧ IsGreatest {n | stride.toNat ∣ n ∧ n < max.toNat} last.toNat := by
  refine ⟨fun error => build_eq_error, fun menu hmenu hmax => ?_⟩
  have hfits := build?_eq hmax hmenu
  obtain ⟨hstride, hle, rfl⟩ := build_eq_ok hmax hmenu
  have hpages : (((shown offset stride max).map (linkTo offset stride)).map fun link => link.page.toNat) =
      List.range' (firstShown offset stride) (lastShown offset stride max + 1 - firstShown offset stride) := by
    rw [← map_toNat_shown hstride, List.map_map]
    rfl
  refine ⟨hfits, ?_, hpages, ?_, _, rfl, isGreatest_lastOffset hstride hmax⟩
  · have hshown := firstShown_le_lastShown hstride hle hmax
    intro hnil
    have hlength := congrArg List.length hpages
    rw [List.map_eq_nil_iff.mp hnil, List.map_nil, List.map_nil, List.length_nil, List.length_range'] at hlength
    omega
  · rintro _ hlink
    obtain ⟨page, hpage, rfl⟩ := List.mem_map.mp hlink
    obtain ⟨hfirst, hlast⟩ := shown_bounds hstride hpage
    obtain ⟨_, hoffset, hlt⟩ := toNat_offset hstride hfirst hlast
    have hbefore : (linkTo offset stride page).offset < max := UInt64.lt_iff_toNat_lt.mpr (hoffset ▸ hlt)
    exact ⟨hoffset, hbefore, showsSome_of_lt hbefore⟩

end PageMenu
end TagSearch
