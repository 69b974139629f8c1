import TagSearch.Proofs.Query.NormalForm
import TagSearch.Proofs.Query.Parse

/-! The canonical text of a query. What a query parses to, or why it does not, depends on its canonical text only. -/
namespace TagSearch.Query

variable {raw : String} {kind : Kind}

/-- The token with the written normal form of its text. -/
def Token.canonical (t : Token) : Token := ⟨(normalize t.text).render, t.negated⟩

/-- The tokens of a query in normal form, each with a minus sign if it is negated, and with one blank between
neighbours. -/
def canonical (raw : String) : String :=
  String.ofList (Text.joinWith ' ' (((tokenize raw).map Token.canonical).map Token.write))

lemma form_canonical (t : Token) : normalize t.canonical.text = normalize t.text :=
  normalize_render (isCanonical_normalize t.text)

lemma isBare_canonical {t : Token} (h : t ∈ tokenize raw) : IsBare t.canonical.text.toList := by
  obtain ⟨hne, hsolid⟩ := text_of_mem_tokenize h
  exact isBare_render (isCanonical_normalize t.text) (normalize_ne_empty hne hsolid)

/-- The items of a canonical text are the canonical tokens. -/
lemma items_canonical (raw : String) : items (canonical raw).toList = (tokenize raw).map Token.canonical := by
  have hbare : ∀ t ∈ (tokenize raw).map Token.canonical, IsBare t.text.toList :=
    List.forall_mem_map.mpr fun t ht => isBare_canonical ht
  rw [canonical, String.toList_ofList, items_write hbare]

lemma tokenize_canonical (raw : String) :
    tokenize (canonical raw) = firstOfKey Token.text ((tokenize raw).map Token.canonical) :=
  tokenize_of_items (items_canonical raw) (List.forall_mem_map.mpr fun _ ht => (isBare_canonical ht).ne_empty)

/-- Tokens that collide in the canonical text have one key, so the same terms are left. -/
theorem terms_canonical (raw : String) (kind : Kind) : terms (canonical raw) kind = terms raw kind := by
  have hkey : (fun t : Token => t.canonical.key kind) = Token.key kind := by
    funext t
    rw [Token.key, form_canonical, Token.key]
  have hterm : Token.term ∘ Token.canonical = Token.term := by
    funext t
    change (⟨normalize t.canonical.text, t.canonical.negated⟩ : Term) = ⟨normalize t.text, t.negated⟩
    rw [form_canonical, Token.canonical]
  have hfirst : firstOfKey (Token.key kind) (tokenize (canonical raw)) =
      (firstOfKey (Token.key kind) (tokenize raw)).map Token.canonical :=
    calc firstOfKey (Token.key kind) (tokenize (canonical raw))
        = firstOfKey (Token.key kind) (firstOfKey Token.text ((tokenize raw).map Token.canonical)) := by
          rw [tokenize_canonical]
      _ = firstOfKey (Token.key kind) ((tokenize raw).map Token.canonical) :=
          firstOfKey_firstOfKey Token.text (fun text => (normalize text).key kind) _
      _ = (firstOfKey (Token.key kind) (tokenize raw)).map Token.canonical := by rw [firstOfKey_map, hkey]
  rw [terms_eq, hfirst, List.map_map, hterm, ← terms_eq]

lemma parse_congr {other : String} (h : terms raw kind = terms other kind) : parse raw kind = parse other kind := by
  rw [parse, parse, h]

/-- A query and its canonical text ask the same questions and have the same predicates or the same error, and so has
the canonical text of the canonical text. -/
theorem parse_of_canonical (raw : String) (kind : Kind) (source : Source) :
    parse (canonical raw) kind source = parse raw kind source ∧
      parse (canonical (canonical raw)) kind source = parse raw kind source := by
  have hterms := terms_canonical raw kind
  constructor
  · rw [parse_congr hterms]
  · rw [parse_congr ((terms_canonical (canonical raw) kind).trans hterms)]

example : canonical "Cat -cat 'Two Words' -Score:=5" = "cat -cat two_words -score:5" := by decide +kernel

end TagSearch.Query
