import TagSearch.Proofs.Query.Single
import TagSearch.Proofs.Text.Decimal

/-! Numbers and hashes that queries write. The metatag has the number that the digits denote, with all of its 64 bits,
and a value that denotes none is refused. -/
namespace TagSearch

/-- Two runs of digits around a point, of the values of the two hashes. -/
def HashPair.WrittenAs (pair : HashPair) (text : List Char) : Prop :=
  ∃ horizontal vertical, text = horizontal ++ '.' :: vertical ∧
    Text.Denotes horizontal pair.horizontal.toNat ∧ Text.Denotes vertical pair.vertical.toNat

namespace Metatag
open Text

variable {name value : String} {source : Source} {text : List Char}

lemma splitPoint?_append {before : List Char} (h : '.' ∉ before) (after : List Char) :
    splitPoint? (before ++ '.' :: after) = some (before, after) := by
  induction before with
  | nil => rfl
  | cons c before ih =>
    rw [List.mem_cons, not_or] at h
    rw [List.cons_append, splitPoint?, if_neg (Ne.symm h.1), ih h.2]
    rfl

lemma splitPoint?_eq_none (h : '.' ∉ text) : splitPoint? text = none := by
  induction text with
  | nil => rfl
  | cons c rest ih =>
    rw [List.mem_cons, not_or] at h
    rw [splitPoint?, if_neg (Ne.symm h.1), ih h.2]
    rfl

lemma hashPair?_eq_some {horizontal vertical : List Char} {pair : HashPair} (hh : '+' ∉ horizontal)
    (hv : '+' ∉ vertical) : hashPair? horizontal vertical = some pair ↔
      Denotes horizontal pair.horizontal.toNat ∧ Denotes vertical pair.vertical.toNat := by
  rw [← word?_eq_some hh, ← word?_eq_some hv, hashPair?]
  obtain ⟨h, v⟩ := pair
  cases word? horizontal <;> cases word? vertical <;> simp

/-- A pair is read from its two hashes around a point. -/
lemma readSimilarity_of_writtenAs {pair : HashPair} (h : pair.WrittenAs value.toList) :
    (readSimilarity name value source).result = .ok pair := by
  obtain ⟨horizontal, vertical, htext, hh, hv⟩ := h
  have hpair := (hashPair?_eq_some (hh.notMem rfl) (hv.notMem rfl)).mpr ⟨hh, hv⟩
  rw [readSimilarity, htext, splitPoint?_append (hh.notMem rfl)]
  simp only [hpair]
  rfl

/-- Any other value with a point is refused. -/
lemma readSimilarity_of_not_writtenAs (hplus : '+' ∉ value.toList) (hpoint : '.' ∈ value.toList)
    (h : ¬ ∃ pair : HashPair, pair.WrittenAs value.toList) :
    (readSimilarity name value source).result = .error (.invalidValue name value .notTwoHashes) := by
  obtain ⟨before, after, htext, hbefore⟩ := List.eq_append_cons_of_mem hpoint
  have hpair : hashPair? before after = none := by
    rw [Option.eq_none_iff_forall_ne_some]
    intro pair hpair
    rw [htext, List.mem_append, List.mem_cons, not_or, not_or] at hplus
    exact h ⟨pair, before, after, htext, (hashPair?_eq_some hplus.1 hplus.2.2).mp hpair⟩
  rw [readSimilarity, htext, splitPoint?_append hbefore]
  simp only [hpair, Inquiry.result_fail]

/-- An integer is read from its digits. -/
lemma readValue_of_denotesInteger (hplus : '+' ∉ value.toList) {n : Int64}
    (h : DenotesInteger value.toList n.toInt) :
    (readValue name .integer value source).result = .ok (.integer n) := by
  rw [readValue, (integer?_eq_some hplus).mpr h]
  rfl

/-- Any other value of an integer is refused. -/
lemma readValue_of_not_denotesInteger (hplus : '+' ∉ value.toList)
    (h : ¬ ∃ n : Int64, DenotesInteger value.toList n.toInt) :
    (readValue name .integer value source).result = .error (.invalidValue name value .notAnInteger) := by
  have hread : integer? value.toList = none := by
    rw [Option.eq_none_iff_forall_ne_some]
    exact fun n hn => h ⟨n, (integer?_eq_some hplus).mp hn⟩
  rw [readValue, hread]
  rfl

lemma comparator_of_integer {d : Descriptor} (hd : d ∈ registry) (h : d.value = .integer) :
    d.comparator = .asWritten ∧ d.negatable = true := by
  revert d
  decide

end Metatag

namespace Query
open Text

variable {source : Source} {name mark value : String} {d : Metatag.Descriptor} {comparator : Comparator}

lemma plus_notMem {text : List Char} (h : ∀ c ∈ text, isValueChar c = true) : '+' ∉ text :=
  fun hmem => absurd (h _ hmem) (by decide)

lemma isValueChar_of_isDigit {c : Char} (h : isDigit c = true) : isValueChar c = true := by
  have hname : isNameChar c = true := by
    rw [isDigit] at h
    rw [isNameChar, h, Bool.or_true, Bool.true_or]
  exact isValueChar_of_isNameChar hname

lemma isValueChar_of_denotesInteger {text : List Char} {n : Int} (h : DenotesInteger text n) :
    ∀ c ∈ text, isValueChar c = true := by
  cases h with
  | plain h => exact fun c hc => isValueChar_of_isDigit (h.2.1 c hc)
  | minus h => exact List.forall_mem_cons.mpr ⟨rfl, fun c hc => isValueChar_of_isDigit (h.2.1 c hc)⟩

lemma isValueChar_of_writtenAs {text : List Char} {pair : HashPair} (h : pair.WrittenAs text) :
    ∀ c ∈ text, isValueChar c = true := by
  obtain ⟨horizontal, vertical, rfl, hh, hv⟩ := h
  rw [List.forall_mem_append, List.forall_mem_cons]
  exact ⟨fun c hc => isValueChar_of_isDigit (hh.2.1 c hc), rfl, fun c hc => isValueChar_of_isDigit (hv.2.1 c hc)⟩

lemma writtenAs_render (pair : HashPair) : pair.WrittenAs pair.render.toList := by
  refine ⟨(toString pair.horizontal).toList, (toString pair.vertical).toList, ?_, denotes_toString _,
    denotes_toString _⟩
  simp [HashPair.render]

section Integer

variable (excluded : Bool) (hd : Metatag.lookup? name .image = some d) (hinteger : d.value = .integer)
  (hmark : comparator.Writes mark.toList)

include hd hinteger hmark

/-- An integer metatag has the number that is written, with the comparator of its sign. -/
theorem parse_integer {n : Int64} (h : DenotesInteger value.toList n.toInt) :
    (parse (writeMetatag excluded name mark value) .image source).result =
      .ok [.ofCondition ⟨d.name, .integer n, Metatag.signed excluded comparator⟩ excluded] := by
  have hvalue := isValueChar_of_denotesInteger h
  obtain ⟨hwritten, hnegatable⟩ := Metatag.comparator_of_integer (Metatag.mem_registry_of_lookup? hd) hinteger
  have hsigned : Metatag.signedComparator d name (d.chooseComparator comparator) excluded =
      .ok (Metatag.signed excluded comparator) := by
    rw [Metatag.Descriptor.chooseComparator, hwritten, Metatag.signedComparator, hnegatable]
    cases excluded <;> rfl
  rw [result_parse_writeMetatag excluded hd hmark hvalue, hinteger,
    Metatag.readValue_of_denotesInteger (plus_notMem hvalue) h, hsigned]
  rfl

theorem parse_not_integer (hvalue : ∀ c ∈ value.toList, isValueChar c = true)
    (h : ¬ ∃ n : Int64, DenotesInteger value.toList n.toInt) :
    (parse (writeMetatag excluded name mark value) .image source).result =
      .error (.invalidValue name value .notAnInteger) := by
  rw [result_parse_writeMetatag excluded hd hmark hvalue, hinteger,
    Metatag.readValue_of_not_denotesInteger (plus_notMem hvalue) h]
  rfl

end Integer

lemma lookup_ordersimilar : Metatag.lookup? "ordersimilar" .image =
    some ⟨"ordersimilar", [], .orderSimilar, .similarity, .forced .eq, false, .images⟩ := by
  decide

/-- Similarity to a pair of hashes has that pair. -/
theorem parse_hashes (hmark : comparator.Writes mark.toList) {pair : HashPair} (h : pair.WrittenAs value.toList) :
    (parse (writeMetatag false "ordersimilar" mark value) .image source).result =
      .ok [.ofCondition ⟨"ordersimilar", .hashes pair, .eq⟩ false] := by
  rw [result_parse_writeMetatag false lookup_ordersimilar hmark (isValueChar_of_writtenAs h), Metatag.readValue,
    Inquiry.result_bind, Metatag.readSimilarity_of_writtenAs h]
  rfl

theorem parse_not_hashes (excluded : Bool) (hmark : comparator.Writes mark.toList)
    (hvalue : ∀ c ∈ value.toList, isValueChar c = true) (hpoint : '.' ∈ value.toList)
    (h : ¬ ∃ pair : HashPair, pair.WrittenAs value.toList) :
    (parse (writeMetatag excluded "ordersimilar" mark value) .image source).result =
      .error (.invalidValue "ordersimilar" value .notTwoHashes) := by
  rw [result_parse_writeMetatag excluded lookup_ordersimilar hmark hvalue, Metatag.readValue, Inquiry.result_bind,
    Metatag.readSimilarity_of_not_writtenAs (plus_notMem hvalue) hpoint h]
  rfl

/-- Numbers and hashes are read exactly. An integer metatag has the number that its digits denote, if that has 64 bits,
and similarity has the pair that is written around a point; every other value is refused as it stands. -/
theorem literals_read_exactly (source : Source) :
    (∀ name d, Metatag.lookup? name .image = some d → d.value = .integer →
      ∀ (excluded : Bool) (comparator : Comparator) (mark : String), comparator.Writes mark.toList →
        (∀ n : Int64, (parse (writeMetatag excluded name mark (Metatag.Value.integer n).render) .image source).result =
          .ok [.ofCondition ⟨d.name, .integer n, Metatag.signed excluded comparator⟩ excluded]) ∧
        ∀ value : String, (∀ c ∈ value.toList, isValueChar c = true) →
          (∀ n : Int64, DenotesInteger value.toList n.toInt →
            (parse (writeMetatag excluded name mark value) .image source).result =
              .ok [.ofCondition ⟨d.name, .integer n, Metatag.signed excluded comparator⟩ excluded]) ∧
          ((¬ ∃ n : Int64, DenotesInteger value.toList n.toInt) →
            (parse (writeMetatag excluded name mark value) .image source).result =
              .error (.invalidValue name value .notAnInteger))) ∧
    ∀ (comparator : Comparator) (mark : String), comparator.Writes mark.toList →
      (∀ pair : HashPair, (parse (writeMetatag false "ordersimilar" mark pair.render) .image source).result =
        .ok [.ofCondition ⟨"ordersimilar", .hashes pair, .eq⟩ false]) ∧
      ∀ value : String, (∀ c ∈ value.toList, isValueChar c = true) → '.' ∈ value.toList →
        (∀ pair : HashPair, pair.WrittenAs value.toList →
          (parse (writeMetatag false "ordersimilar" mark value) .image source).result =
            .ok [.ofCondition ⟨"ordersimilar", .hashes pair, .eq⟩ false]) ∧
        ((¬ ∃ pair : HashPair, pair.WrittenAs value.toList) → ∀ excluded,
          (parse (writeMetatag excluded "ordersimilar" mark value) .image source).result =
            .error (.invalidValue "ordersimilar" value .notTwoHashes)) := by
  constructor
  · intro name d hd hinteger excluded comparator mark hmark
    refine ⟨fun n => ?_, fun value hvalue => ⟨fun n h => ?_, fun h => ?_⟩⟩
    · exact parse_integer excluded hd hinteger hmark (denotesInteger_toString n.toInt)
    · exact parse_integer excluded hd hinteger hmark h
    · exact parse_not_integer excluded hd hinteger hmark hvalue h
  · intro comparator mark hmark
    refine ⟨fun pair => ?_, fun value hvalue hpoint => ⟨fun pair h => ?_, fun h excluded => ?_⟩⟩
    · exact parse_hashes hmark (writtenAs_render pair)
    · exact parse_hashes hmark h
    · exact parse_not_hashes excluded hmark hvalue hpoint h

theorem literals_at_bounds :
    (parse "-averagescore:>=-9223372036854775808" .image (Database.ready .empty).source).result =
        .ok [.ofCondition ⟨"score", .integer Int64.minValue, .lt⟩ true] ∧
      (parse "tagcount:=9223372036854775808" .image (Database.ready .empty).source).result =
        .error (.invalidValue "tagcount" "9223372036854775808" .notAnInteger) ∧
      (parse "ordersimilar:18446744073709551615.0" .image (Database.ready .empty).source).result =
        .ok [.ofCondition ⟨"ordersimilar", .hashes ⟨18446744073709551615, 0⟩, .eq⟩ false] ∧
      (parse "-ordersimilar:1..2" .image (Database.ready .empty).source).result =
        .error (.invalidValue "ordersimilar" "1..2" .notTwoHashes) := by
  obtain ⟨hinteger, hhashes⟩ := literals_read_exactly (Database.ready .empty).source
  have hbig : ¬ ∃ n : Int64, DenotesInteger "9223372036854775808".toList n.toInt := by
    rintro ⟨n, hn⟩
    have hnone : integer? "9223372036854775808".toList = none := by decide +kernel
    exact absurd (hnone.symm.trans ((integer?_eq_some (by decide)).mpr hn)) (Option.some_ne_none n).symm
  have hpoints : ¬ ∃ pair : HashPair, pair.WrittenAs "1..2".toList := by
    rintro ⟨pair, horizontal, vertical, htext, hh, hv⟩
    have hcount := congrArg (List.count '.') htext
    rw [List.count_append, List.count_cons_self, List.count_eq_zero.mpr (hh.notMem rfl),
      List.count_eq_zero.mpr (hv.notMem rfl)] at hcount
    exact absurd hcount (by decide)
  have hdigits : ∀ c ∈ "9223372036854775808".toList, isValueChar c = true := List.all_eq_true.mp (by decide)
  have hvalue : ∀ c ∈ "1..2".toList, isValueChar c = true := List.all_eq_true.mp (by decide)
  have hscore : writeMetatag true "averagescore" ">=" (Metatag.Value.integer Int64.minValue).render =
    "-averagescore:>=-9223372036854775808" := by decide +kernel
  have hcount : writeMetatag false "tagcount" "=" "9223372036854775808" = "tagcount:=9223372036854775808" := by
    decide +kernel
  have hpair : writeMetatag false "ordersimilar" "" (HashPair.mk 18446744073709551615 0).render =
    "ordersimilar:18446744073709551615.0" := by decide +kernel
  have hpoint : writeMetatag true "ordersimilar" "" "1..2" = "-ordersimilar:1..2" := by decide +kernel
  rw [← hscore, ← hcount, ← hpair, ← hpoint]
  refine ⟨?_, ?_, ?_, ?_⟩
  · exact (hinteger "averagescore" _ rfl rfl true .ge ">=" ⟨rfl, .inl rfl⟩).1 Int64.minValue
  · exact ((hinteger "tagcount" _ rfl rfl false .eq "=" ⟨rfl, .inl rfl⟩).2 _ hdigits).2 hbig
  · exact (hhashes .eq "" ⟨rfl, .inr ⟨rfl, rfl⟩⟩).1 ⟨18446744073709551615, 0⟩
  · exact ((hhashes .eq "" ⟨rfl, .inr ⟨rfl, rfl⟩⟩).2 _ hvalue (by decide)).2 hpoints true

end Query
end TagSearch
