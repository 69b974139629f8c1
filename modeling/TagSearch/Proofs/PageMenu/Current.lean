import TagSearch.Proofs.PageMenu.Shape

/-! The current page of a menu. One link is marked, on the page that holds the offset, unless the offset lies where the
last page ends: then the current page is the one behind the last, and no link is marked. -/
namespace TagSearch
namespace PageMenu

variable {offset stride max : UInt64} {menu : PageMenu}

/-- The offset lies where the last page ends. If the page behind it has no number, the last page counts as current. -/
def StartsBehind (offset stride max : UInt64) : Prop :=
  offset = max ∧ 0 < max ∧ stride.toNat ∣ max.toNat ∧ ¬(stride = 1 ∧ max.toNat = 2 ^ 64 - 1)

instance : Decidable (StartsBehind offset stride max) :=
  inferInstanceAs (Decidable (_ ∧ _ ∧ _ ∧ _))

/-- The current page is behind all pages only where the offset lies at the end of a full page. -/
lemma pageCount_lt_pageAt (h : 0 < stride) (hle : offset ≤ max) (hmax : 0 < max) :
    pageCount max stride < pageAt offset stride ↔ StartsBehind offset stride max := by
  have hstride := UInt64.lt_iff_toNat_lt.mp h
  rw [UInt64.le_iff_toNat_le] at hle
  constructor
  · intro hlt
    rw [pageAt, Nat.lt_min] at hlt
    have hend : max.toNat ≤ offset.toNat / stride.toNat * stride.toNat :=
      Nat.not_lt.mp ((lt_pageCount h).not.mp (Nat.not_lt.mpr (Nat.le_of_lt_succ hlt.1)))
    have hfloor := Nat.div_mul_le_self offset.toNat stride.toNat
    have heq : offset.toNat / stride.toNat * stride.toNat = max.toNat := by omega
    refine ⟨UInt64.toNat_inj.mp (by omega), hmax, heq ▸ Nat.dvd_mul_left _ _, ?_⟩
    rintro ⟨rfl, hlargest⟩
    have hcount : pageCount max 1 = max.toNat := Nat.div_one _
    omega
  · rintro ⟨rfl, _, hdvd, hlast⟩
    obtain ⟨k, hk⟩ := hdvd
    have hcount : pageCount offset stride = k := by
      rw [pageCount, hk, ceilDiv_eq_ite _ hstride, Nat.mul_mod_right, if_pos rfl, Nat.mul_div_cancel_left _ hstride]
    rw [hcount, pageAt, hk, Nat.mul_div_cancel_left _ hstride]
    refine Nat.lt_min.mpr ⟨Nat.lt_succ_self k, Nat.lt_of_not_le fun hlarge => hlast ?_⟩
    have hlt := offset.toNat_lt
    have hone : stride.toNat = 1 := by
      by_contra hne
      have htwice : 2 * k ≤ stride.toNat * k := Nat.mul_le_mul_right k (by omega)
      omega
    rw [hone, Nat.one_mul] at hk
    exact ⟨UInt64.toNat_inj.mp hone, by omega⟩

/-- Of the pages of a menu, only the current one is marked. -/
lemma filter_current (h : 0 < stride) :
    ((shown offset stride max).map (linkTo offset stride)).filter PageLink.current =
      if currentNumber offset stride ∈ shown offset stride max then
        [linkTo offset stride (currentNumber offset stride)] else [] := by
  have hnodup : (shown offset stride max).Nodup :=
    List.Nodup.of_map UInt64.toNat (map_toNat_shown h ▸ List.nodup_range')
  have hcurrent : (shown offset stride max).filter (PageLink.current ∘ linkTo offset stride) =
      (shown offset stride max).filter (· = currentNumber offset stride) := rfl
  rw [List.filter_map, hcurrent, List.filter_eq]
  split
  · rename_i hmem
    rw [List.count_eq_one_of_mem hnodup hmem]
    rfl
  · rename_i hmem
    rw [List.count_eq_zero_of_not_mem hmem]
    rfl

lemma currentNumber_mem_shown (h : 0 < stride) :
    currentNumber offset stride ∈ shown offset stride max ↔ pageAt offset stride ≤ pageCount max stride := by
  have hpos : 1 ≤ pageAt offset stride := Nat.le_min.mpr ⟨Nat.succ_pos _, by decide⟩
  rw [mem_shown h, toNat_currentNumber, firstShown, lastShown, Nat.max_le, Nat.le_min]
  omega

/-- The current page holds every offset before the end. -/
lemma offset_mem_current (h : 0 < stride) (hlt : offset < max) :
    (linkTo offset stride (currentNumber offset stride)).offset.toNat ≤ offset.toNat ∧
      offset.toNat < (linkTo offset stride (currentNumber offset stride)).offset.toNat + stride.toNat := by
  have hstride := UInt64.lt_iff_toNat_lt.mp h
  have hfloor := Nat.div_mul_le_self offset.toNat stride.toNat
  have hpage : offset.toNat / stride.toNat < pageCount max stride :=
    (lt_pageCount h).mpr (Nat.lt_of_le_of_lt hfloor (UInt64.lt_iff_toNat_lt.mp hlt))
  have hcurrent : (currentNumber offset stride).toNat = offset.toNat / stride.toNat + 1 := by
    have hcount := @pageCount_lt stride max h
    rw [toNat_currentNumber, pageAt]
    omega
  obtain ⟨_, hoffset, _⟩ := @toNat_offset stride max (currentNumber offset stride) h
    (hcurrent ▸ Nat.succ_pos _) (hcurrent ▸ Nat.succ_le_of_lt hpage)
  have hbegin : (linkTo offset stride (currentNumber offset stride)).offset.toNat =
      offset.toNat / stride.toNat * stride.toNat := by
    rw [linkTo, hoffset, hcurrent, Nat.add_sub_cancel]
  have hmod := Nat.mod_lt offset.toNat hstride
  have hdiv := Nat.div_add_mod' offset.toNat stride.toNat
  rw [hbegin]
  exact ⟨hfloor, by omega⟩

/-- A text without brackets. -/
def IsPlain (text : String) : Prop := '[' ∉ text.toList ∧ ']' ∉ text.toList

instance (text : String) : Decidable (IsPlain text) := inferInstanceAs (Decidable (_ ∧ _))

lemma isPlain_append {left right : String} (hleft : IsPlain left) (hright : IsPlain right) :
    IsPlain (left ++ right) := by
  simp only [IsPlain, String.toList_append, List.mem_append, not_or]
  exact ⟨⟨hleft.1, hright.1⟩, hleft.2, hright.2⟩

/-- Numbers are written in digits. -/
lemma isPlain_toString (n : UInt64) : IsPlain (toString n) := by
  have hdigits : ∀ c ∈ (toString n).toList, c.isDigit = true := by
    intro c hc
    rw [show toString n = n.toNat.repr from rfl, Nat.toList_repr] at hc
    exact Nat.isDigit_of_mem_toDigits (by decide) (by decide) hc
  refine ⟨fun h => ?_, fun h => ?_⟩
  · exact absurd (hdigits _ h) (by decide)
  · exact absurd (hdigits _ h) (by decide)

lemma isPlain_intercalate {separator : String} {texts : List String} (hseparator : IsPlain separator)
    (h : ∀ text ∈ texts, IsPlain text) : IsPlain (String.intercalate separator texts) := by
  induction texts with
  | nil => exact ⟨List.not_mem_nil, List.not_mem_nil⟩
  | cons text rest ih =>
    rw [List.forall_mem_cons] at h
    by_cases hrest : rest = []
    · rw [hrest, String.intercalate_singleton]
      exact h.1
    · rw [String.intercalate_cons_of_ne_nil hrest]
      exact isPlain_append (isPlain_append h.1 hseparator) (ih h.2)

/-- One text among others that are plain stands between plain texts. -/
lemma exists_intercalate_eq {separator text : String} {left right : List String} (hseparator : IsPlain separator)
    (hleft : ∀ other ∈ left, IsPlain other) (hright : ∀ other ∈ right, IsPlain other) :
    ∃ before after, String.intercalate separator (left ++ text :: right) = before ++ text ++ after ∧
      IsPlain before ∧ IsPlain after := by
  have hafter : ∃ after, String.intercalate separator (text :: right) = text ++ after ∧ IsPlain after := by
    by_cases hnil : right = []
    · refine ⟨"", ?_, List.not_mem_nil, List.not_mem_nil⟩
      rw [hnil, String.intercalate_singleton, String.append_empty]
    · refine ⟨separator ++ String.intercalate separator right, ?_,
        isPlain_append hseparator (isPlain_intercalate hseparator hright)⟩
      rw [String.intercalate_cons_of_ne_nil hnil, String.append_assoc]
  obtain ⟨after, htail, hplain⟩ := hafter
  by_cases hnil : left = []
  · refine ⟨"", after, ?_, ⟨List.not_mem_nil, List.not_mem_nil⟩, hplain⟩
    rw [hnil, List.nil_append, htail, String.empty_append]
  · refine ⟨String.intercalate separator left ++ separator, after, ?_,
      isPlain_append (isPlain_intercalate hseparator hleft) hseparator, hplain⟩
    rw [String.intercalate_append_of_ne_nil hnil (List.cons_ne_nil _ _), htail, String.append_assoc,
      String.append_assoc, String.append_assoc]

/-- A text put between the arrows of a menu, if there is a last page to go to. -/
lemma render_eq (menu : PageMenu) : ∃ front back, IsPlain front ∧ IsPlain back ∧
    menu.render = front ++ String.intercalate ", " (menu.pages.map renderLink) ++ back := by
  cases h : menu.lastOffset with
  | none => exact ⟨"", "", by decide, by decide, by simp [render, h]⟩
  | some last => exact ⟨"<< ", " >>", by decide, by decide, by rw [render, h]⟩

/-- Pages that are not current are written without brackets. -/
lemma isPlain_renderLink {links : List PageLink} (h : ∀ link ∈ links, ¬link.current = true) :
    ∀ text ∈ links.map renderLink, IsPlain text := by
  intro text htext
  obtain ⟨link, hlink, rfl⟩ := List.mem_map.mp htext
  rw [renderLink, if_neg (h link hlink)]
  exact isPlain_toString link.page

lemma isPlain_render (h : menu.pages.filter PageLink.current = []) : IsPlain menu.render := by
  obtain ⟨front, back, hfront, hback, hrender⟩ := render_eq menu
  rw [hrender]
  exact isPlain_append (isPlain_append hfront
    (isPlain_intercalate (by decide) (isPlain_renderLink (List.filter_eq_nil_iff.mp h)))) hback

/-- A marked page is the only one in brackets. -/
lemma render_of_filter_current {link : PageLink} (h : menu.pages.filter PageLink.current = [link]) :
    ∃ before after, menu.render = before ++ ("[" ++ toString link.page ++ "]") ++ after ∧
      IsPlain before ∧ IsPlain after := by
  obtain ⟨front, back, hfront, hback, hrender⟩ := render_eq menu
  obtain ⟨left, right, hpages, hleft, hlink, hright⟩ := List.filter_eq_cons_iff.mp h
  obtain ⟨before, after, htext, hbefore, hafter⟩ := @exists_intercalate_eq ", " (renderLink link) _ _ (by decide)
    (isPlain_renderLink hleft) (isPlain_renderLink (List.filter_eq_nil_iff.mp hright))
  refine ⟨front ++ before, after ++ back, ?_, isPlain_append hfront hbefore, isPlain_append hafter hback⟩
  rw [hrender, hpages, List.map_append, List.map_cons, htext, renderLink, if_pos hlink]
  simp only [String.append_assoc]

lemma currentPage_eq_head? (menu : PageMenu) :
    menu.currentPage = (menu.pages.filter PageLink.current).head?.map PageLink.page := by
  rw [currentPage, List.head?_filter]

/-- The menu of a result without entries. -/
lemma build_zero (h : build offset stride 0 = .ok menu) : menu = ⟨[⟨1, 0, true⟩], none⟩ := by
  rw [build] at h
  split at h
  · cases h
  · cases h
    rfl

lemma not_startsBehind_zero : ¬StartsBehind offset stride 0 := fun h => absurd h.2.1 (by decide)

/-- One link of a menu is marked, and it is the page of the offset, unless the offset lies where the last page ends. -/
lemma marked_eq (h : build offset stride max = .ok menu) :
    (StartsBehind offset stride max → menu.pages.filter PageLink.current = []) ∧
      (¬StartsBehind offset stride max → ∃ link, menu.pages.filter PageLink.current = [link] ∧
        (offset < max → link.offset ≤ offset ∧ offset.toNat < link.offset.toNat + stride.toNat)) := by
  by_cases hzero : max = 0
  · rw [hzero] at h ⊢
    rw [build_zero h]
    exact ⟨fun hbehind => (not_startsBehind_zero hbehind).elim,
      fun _ => ⟨_, rfl, fun hlt => absurd hlt (UInt64.not_lt_zero)⟩⟩
  · have hmax := UInt64.pos_iff_ne_zero.mpr hzero
    obtain ⟨hstride, hle, rfl⟩ := build_eq_ok hmax h
    have hmem := @currentNumber_mem_shown offset stride max hstride
    rw [← pageCount_lt_pageAt hstride hle hmax, ← Nat.not_le, ← hmem, not_not]
    refine ⟨fun hnone => (filter_current hstride).trans (if_neg hnone), fun hsome =>
      ⟨_, (filter_current hstride).trans (if_pos hsome), fun hlt => ?_⟩⟩
    obtain ⟨hbegin, hend⟩ := offset_mem_current hstride hlt
    exact ⟨UInt64.le_iff_toNat_le.mpr hbegin, hend⟩

/-- A menu marks one page and writes it in brackets, and before the end of the result this is the page that holds the
offset. Only where the offset lies at the end of a full last page, no page is marked. -/
theorem current_page_marked (h : build offset stride max = .ok menu) :
    (StartsBehind offset stride max →
      menu.pages.filter PageLink.current = [] ∧ menu.currentPage = none ∧ IsPlain menu.render) ∧
    (¬StartsBehind offset stride max → ∃ link before after, menu.pages.filter PageLink.current = [link] ∧
      menu.currentPage = some link.page ∧ menu.render = before ++ ("[" ++ toString link.page ++ "]") ++ after ∧
      IsPlain before ∧ IsPlain after ∧
      (offset < max → link.offset ≤ offset ∧ offset.toNat < link.offset.toNat + stride.toNat)) := by
  obtain ⟨hbehind, hwithin⟩ := marked_eq h
  refine ⟨fun hstart => ?_, fun hstart => ?_⟩
  · have hnone := hbehind hstart
    refine ⟨hnone, ?_, isPlain_render hnone⟩
    rw [currentPage_eq_head?, hnone]
    rfl
  · obtain ⟨link, hlink, hoffset⟩ := hwithin hstart
    obtain ⟨before, after, hrender, hbefore, hafter⟩ := render_of_filter_current hlink
    refine ⟨link, before, after, hlink, ?_, hrender, hbefore, hafter, hoffset⟩
    rw [currentPage_eq_head?, hlink]
    rfl

/-- The last page of three, from an offset within it. -/
theorem current_page_of_thirty : ∃ menu, ∃ link : PageLink, build 29 10 30 = .ok menu ∧
    menu.currentPage = some link.page ∧ link.offset ≤ 29 ∧ 29 < link.offset.toNat + 10 := by
  have hmenu : build 29 10 30 = .ok ⟨[⟨1, 0, false⟩, ⟨2, 10, false⟩, ⟨3, 20, true⟩], some 20⟩ := by decide
  obtain ⟨_, hwithin⟩ := current_page_marked hmenu
  obtain ⟨link, _, _, _, hpage, _, _, _, hoffset⟩ := hwithin (by decide)
  obtain ⟨hbegin, hend⟩ := hoffset (by decide)
  exact ⟨_, link, hmenu, hpage, hbegin, hend⟩

/-- At the end of a full page no page is marked. -/
theorem no_page_at_end : ∃ menu, build 10 10 10 = .ok menu ∧ menu.pages.filter PageLink.current = [] ∧
    menu.currentPage = none ∧ menu.render = "<< 1 >>" :=
  ⟨⟨[⟨1, 0, false⟩], some 0⟩, by decide, rfl, rfl, by decide⟩

-- there is no number for the page behind the largest one
example : (build 18446744073709551615 1 18446744073709551615).map currentPage = .ok (some 18446744073709551615) := by
  decide +kernel

end PageMenu
end TagSearch
