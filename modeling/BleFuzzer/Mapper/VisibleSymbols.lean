import BleFuzzer.Mapper.Agree
import Mathlib.Data.List.Dedup

/-!
# What the learner sees of a response

The learner is told the symbols of the received packets as one text: sorted, without duplicates and
without the filtered ones. `symbolsText` and the sorted list of symbols separate the two steps; the
text determines the list because no symbol contains a `+`.
-/

namespace BleFuzzer.Mapper

variable {τ : Type} {lib : Lib τ}

/-- A text that can be recognized between the `+` of a combined symbol. -/
structure IsSymbol (s : Text) : Prop where
  ne_nil : s ≠ []
  plus_not_mem : '+' ∉ s
  ne_noResponse : s ≠ "NORESPONSE".toList

/-- The combined symbol of a list of symbols. -/
def symbolsText (symbols : List Text) : Text :=
  if symbols = [] then "NORESPONSE".toList else joinSymbols symbols

/-- The symbols that pass a filter. -/
def unfiltered (filter symbols : List Text) : List Text := symbols.filter fun s => !filter.contains s

/-! ## Splitting and joining -/

/-- What is left is what is not filtered. -/
theorem mem_unfiltered {filter symbols : List Text} {s : Text} :
    s ∈ unfiltered filter symbols ↔ s ∈ symbols ∧ s ∉ filter := by
  simp [unfiltered]

/-- Two filters are one. -/
theorem unfiltered_unfiltered (f g symbols : List Text) :
    unfiltered g (unfiltered f symbols) = unfiltered (f ++ g) symbols := by
  simp [unfiltered, List.filter_filter, Bool.and_comm]

/-- `filter_symbol` splits, filters and joins. -/
theorem filterSymbol_eq (symbol : Text) (filter : List Text) :
    filterSymbol symbol filter =
      if joinSymbols (unfiltered filter (symbol.splitOn '+')) = [] then "NORESPONSE".toList
      else joinSymbols (unfiltered filter (symbol.splitOn '+')) := rfl

/-- Only the empty list and the empty symbol join to the empty text. -/
theorem joinSymbols_eq_nil {symbols : List Text} :
    joinSymbols symbols = [] ↔ symbols = [] ∨ symbols = [[]] := by
  match symbols with
  | [] => simp [joinSymbols]
  | [s] => simp [joinSymbols]
  | s :: s' :: symbols => simp [joinSymbols]

/-- Symbols without a plus sign can be joined and split again. -/
theorem splitOn_joinSymbols {symbols : List Text} (hplus : ∀ s ∈ symbols, '+' ∉ s)
    (hne : symbols ≠ []) : (joinSymbols symbols).splitOn '+' = symbols :=
  List.splitOn_intercalate '+' hplus hne

/-- No part of a split contains the separator. -/
theorem plus_not_mem_of_mem_splitOn {text s : Text} (h : s ∈ text.splitOn '+') : '+' ∉ s := by
  induction text generalizing s with
  | nil =>
    obtain rfl : s = [] := by simpa using h
    exact List.not_mem_nil
  | cons c text ih =>
    rw [List.splitOn_cons_eq_if_modifyHead] at h
    split at h
    case isTrue =>
      rcases List.mem_cons.mp h with rfl | h
      · exact List.not_mem_nil
      · exact ih h
    case isFalse hc =>
      obtain ⟨first, rest, hsplit⟩ := List.exists_cons_of_ne_nil (List.splitOn_ne_nil '+' text)
      rw [hsplit, List.modifyHead_cons] at h
      rcases List.mem_cons.mp h with rfl | h
      · have hfirst : '+' ∉ first := ih (hsplit ▸ List.mem_cons_self)
        simp only [beq_iff_eq] at hc
        simp [hfirst, Ne.symm hc]
      · exact ih (hsplit ▸ List.mem_cons_of_mem first h)

/-- The special symbol of an empty response passes every filter. -/
theorem filterSymbol_noResponse (filter : List Text) :
    filterSymbol "NORESPONSE".toList filter = "NORESPONSE".toList := by
  have hsplit : "NORESPONSE".toList.splitOn '+' = ["NORESPONSE".toList] :=
    List.splitOn_eq_singleton (by decide)
  rw [filterSymbol_eq, hsplit]
  by_cases h : "NORESPONSE".toList ∈ filter
  · have hnone : unfiltered filter ["NORESPONSE".toList] = [] := by
      simp only [unfiltered, List.filter_eq_nil_iff, List.mem_singleton]
      rintro s rfl
      simpa using h
    rw [hnone]
    rfl
  · have hkeep : unfiltered filter ["NORESPONSE".toList] = ["NORESPONSE".toList] := by
      simp only [unfiltered, List.filter_eq_self, List.mem_singleton]
      rintro s rfl
      simpa using h
    rw [hkeep, joinSymbols, List.intercalate_singleton, if_neg (by decide)]

/-- **Filters are applied to the set**: one after the other is the same as both at once. -/
theorem filterSymbol_filterSymbol (symbol : Text) (f g : List Text) :
    filterSymbol (filterSymbol symbol f) g = filterSymbol symbol (f ++ g) := by
  have hboth : unfiltered (f ++ g) (symbol.splitOn '+') =
      unfiltered g (unfiltered f (symbol.splitOn '+')) := (unfiltered_unfiltered _ _ _).symm
  by_cases hnil : joinSymbols (unfiltered f (symbol.splitOn '+')) = []
  · -- nothing is left for the second filter
    have hrest : joinSymbols (unfiltered g (unfiltered f (symbol.splitOn '+'))) = [] := by
      rcases joinSymbols_eq_nil.mp hnil with h | h
      · rw [h]
        rfl
      · rw [h, unfiltered, List.filter_singleton]
        cases g.contains [] <;> rfl
    rw [filterSymbol_eq symbol f, if_pos hnil, filterSymbol_noResponse, filterSymbol_eq, hboth,
      if_pos hrest]
  · have hplus : ∀ s ∈ unfiltered f (symbol.splitOn '+'), '+' ∉ s :=
      fun s hs => plus_not_mem_of_mem_splitOn (mem_unfiltered.mp hs).1
    have hne : unfiltered f (symbol.splitOn '+') ≠ [] :=
      fun h => hnil (joinSymbols_eq_nil.mpr (.inl h))
    rw [filterSymbol_eq symbol f, if_neg hnil, filterSymbol_eq, splitOn_joinSymbols hplus hne,
      filterSymbol_eq, hboth]

/-- Filters are sets: their order does not matter. -/
theorem filterSymbol_congr (symbol : Text) {f g : List Text} (h : ∀ s, s ∈ f ↔ s ∈ g) :
    filterSymbol symbol f = filterSymbol symbol g := by
  have hfilter : unfiltered f (symbol.splitOn '+') = unfiltered g (symbol.splitOn '+') :=
    List.filter_congr fun s _ => by simp [h]
  rw [filterSymbol_eq, filterSymbol_eq, hfilter]

/-- Filtering a combined symbol filters its symbols. -/
theorem filterSymbol_symbolsText {symbols : List Text} (h : ∀ s ∈ symbols, IsSymbol s)
    (filter : List Text) :
    filterSymbol (symbolsText symbols) filter = symbolsText (unfiltered filter symbols) := by
  by_cases hnil : symbols = []
  · rw [hnil]
    exact filterSymbol_noResponse filter
  · rw [symbolsText, if_neg hnil, filterSymbol_eq,
      splitOn_joinSymbols (fun s hs => (h s hs).plus_not_mem) hnil]
    have hiff : joinSymbols (unfiltered filter symbols) = [] ↔ unfiltered filter symbols = [] := by
      refine joinSymbols_eq_nil.trans (or_iff_left fun hempty => ?_)
      have hmem : [] ∈ unfiltered filter symbols := hempty ▸ List.mem_singleton_self []
      exact (h [] (mem_unfiltered.mp hmem).1).ne_nil rfl
    simp only [symbolsText, hiff]

/-- The text determines the symbols. -/
theorem symbolsText_inj {symbols symbols' : List Text} (h : ∀ s ∈ symbols, IsSymbol s)
    (h' : ∀ s ∈ symbols', IsSymbol s) :
    symbolsText symbols = symbolsText symbols' ↔ symbols = symbols' := by
  have hsplit {symbols : List Text} (h : ∀ s ∈ symbols, IsSymbol s) :
      (symbolsText symbols).splitOn '+' =
        if symbols = [] then ["NORESPONSE".toList] else symbols := by
    rw [symbolsText]
    split
    · exact List.splitOn_eq_singleton (by decide)
    case isFalse hne => exact splitOn_joinSymbols (fun s hs => (h s hs).plus_not_mem) hne
  have hne {symbols : List Text} (h : ∀ s ∈ symbols, IsSymbol s) :
      symbols ≠ ["NORESPONSE".toList] := fun heq =>
    (h _ (heq ▸ List.mem_singleton_self _)).ne_noResponse rfl
  refine ⟨fun htext => ?_, congrArg _⟩
  have hparts := congrArg (List.splitOn '+') htext
  rw [hsplit h, hsplit h'] at hparts
  split at hparts <;> split at hparts
  case isTrue.isTrue hnil hnil' => rw [hnil, hnil']
  case isTrue.isFalse => exact absurd hparts.symm (hne h')
  case isFalse.isTrue => exact absurd hparts (hne h)
  case isFalse.isFalse => exact hparts

/-! ## The symbols of received packets -/

/-- The lookup table `output_symbol` uses in a state. -/
def World.table (lib : Lib τ) (w : World τ) : List (Text × Text) :=
  w.self.symbols.getD (symbolTable lib w.self)

/-- The symbols of packets, sorted and without duplicates. -/
def symbolsOf (lib : Lib τ) (table : List (Text × Text)) (pkts : List Pkt) : List Text :=
  (pkts.map (packetSymbol lib table)).dedup.insertionSort (· ≤ ·)

/-- The symbols of packets are those of each. -/
theorem mem_symbolsOf {table : List (Text × Text)} {pkts : List Pkt} {s : Text} :
    s ∈ symbolsOf lib table pkts ↔ ∃ pkt ∈ pkts, packetSymbol lib table pkt = s := by
  rw [symbolsOf, List.mem_insertionSort, List.mem_dedup, List.mem_map]

/-- `output_symbol` returns their text. -/
theorem outputSymbol_returns (w : World τ) (pkts : List Pkt) :
    (outputSymbol lib pkts).result w = .ok (symbolsText (symbolsOf lib (w.table lib) pkts)) := by
  have hnil : symbolsOf lib (w.table lib) pkts = [] ↔ pkts = [] := by
    simp only [List.eq_nil_iff_forall_not_mem, mem_symbolsOf]
    exact ⟨fun h pkt hpkt => h _ ⟨pkt, hpkt, rfl⟩, fun h s ⟨pkt, hpkt, _⟩ => h pkt hpkt⟩
  have hsymbol : packetsSymbol lib (w.table lib) pkts =
      symbolsText (symbolsOf lib (w.table lib) pkts) := by
    rw [symbolsText, packetsSymbol]
    simp only [hnil]
    rfl
  rw [← hsymbol]
  exact (outputSymbol_ok w pkts).1

/-- Sorted lists without duplicates are equal when they have the same members. -/
theorem eq_of_mem_iff {xs ys : List Text} (hxs : xs.Pairwise (· ≤ ·)) (hys : ys.Pairwise (· ≤ ·))
    (hxs' : xs.Nodup) (hys' : ys.Nodup) (h : ∀ s, s ∈ xs ↔ s ∈ ys) : xs = ys :=
  ((List.perm_ext_iff_of_nodup hxs' hys').mpr h).eq_of_pairwise' hxs hys

/-- Two lists of packets look alike behind a filter when they have the same unfiltered symbols. -/
theorem unfiltered_symbolsOf_eq_iff {table : List (Text × Text)} {filter : List Text}
    {pkts pkts' : List Pkt} :
    unfiltered filter (symbolsOf lib table pkts) = unfiltered filter (symbolsOf lib table pkts') ↔
      ∀ s, s ∉ filter → ((∃ pkt ∈ pkts, packetSymbol lib table pkt = s) ↔
        ∃ pkt ∈ pkts', packetSymbol lib table pkt = s) := by
  have hsorted (pkts : List Pkt) :
      (unfiltered filter (symbolsOf lib table pkts)).Pairwise (· ≤ ·) :=
    (List.pairwise_insertionSort _ _).filter _
  have hnodup (pkts : List Pkt) : (unfiltered filter (symbolsOf lib table pkts)).Nodup :=
    ((List.perm_insertionSort _ _).nodup_iff.mpr (List.nodup_dedup _)).filter _
  constructor
  · intro h s hs
    have hmem : s ∈ unfiltered filter (symbolsOf lib table pkts) ↔
        s ∈ unfiltered filter (symbolsOf lib table pkts') := by rw [h]
    rwa [mem_unfiltered, mem_unfiltered, and_iff_left hs, and_iff_left hs, mem_symbolsOf,
      mem_symbolsOf] at hmem
  · intro h
    refine eq_of_mem_iff (hsorted _) (hsorted _) (hnodup _) (hnodup _) fun s => ?_
    rw [mem_unfiltered, mem_unfiltered, mem_symbolsOf, mem_symbolsOf]
    exact and_congr_left fun hs => h s hs

/-- **The learner sees the set of unfiltered symbols.** Two responses look the same exactly when the
same unfiltered symbols were received; so neither order nor repetition of packets matters, nor
packets with filtered symbols. A response looks empty exactly when no unfiltered symbol was
received. For every symbol, filtering again changes nothing, and several filters act as their union.
-/
theorem filterSymbol_outputSymbol {w : World τ} {pkts pkts' : List Pkt} {out out' : Text}
    (hsymbol : ∀ pkt ∈ pkts, IsSymbol (packetSymbol lib (w.table lib) pkt))
    (hsymbol' : ∀ pkt ∈ pkts', IsSymbol (packetSymbol lib (w.table lib) pkt))
    (hout : (outputSymbol lib pkts).result w = .ok out)
    (hout' : (outputSymbol lib pkts').result w = .ok out') (filter : List Text) :
    (filterSymbol out filter = filterSymbol out' filter ↔
      ∀ s, s ∉ filter → ((∃ pkt ∈ pkts, packetSymbol lib (w.table lib) pkt = s) ↔
        ∃ pkt ∈ pkts', packetSymbol lib (w.table lib) pkt = s)) ∧
    (pkts ⊆ pkts' →
      (∀ pkt ∈ pkts', pkt ∈ pkts ∨ packetSymbol lib (w.table lib) pkt ∈ filter) →
      filterSymbol out filter = filterSymbol out' filter) ∧
    (filterSymbol out filter = "NORESPONSE".toList ↔
      ∀ pkt ∈ pkts, packetSymbol lib (w.table lib) pkt ∈ filter) ∧
    (∀ symbol, filterSymbol (filterSymbol symbol filter) filter = filterSymbol symbol filter) ∧
    ∀ symbol filter',
      filterSymbol (filterSymbol symbol filter) filter' = filterSymbol symbol (filter ++ filter') ∧
        filterSymbol (filterSymbol symbol filter') filter =
          filterSymbol symbol (filter ++ filter') := by
  have hall {pkts : List Pkt} (h : ∀ pkt ∈ pkts, IsSymbol (packetSymbol lib (w.table lib) pkt)) :
      ∀ s ∈ symbolsOf lib (w.table lib) pkts, IsSymbol s := by
    intro s hs
    obtain ⟨pkt, hpkt, rfl⟩ := mem_symbolsOf.mp hs
    exact h pkt hpkt
  have hleft {pkts : List Pkt} (h : ∀ pkt ∈ pkts, IsSymbol (packetSymbol lib (w.table lib) pkt)) :
      ∀ s ∈ unfiltered filter (symbolsOf lib (w.table lib) pkts), IsSymbol s :=
    fun s hs => hall h s (mem_unfiltered.mp hs).1
  obtain rfl := Except.ok.inj ((outputSymbol_returns w pkts).symm.trans hout)
  obtain rfl := Except.ok.inj ((outputSymbol_returns w pkts').symm.trans hout')
  have hiff := filterSymbol_symbolsText (hall hsymbol) filter
  have hiff' := filterSymbol_symbolsText (hall hsymbol') filter
  -- the text of a response is that of its sorted list of symbols, which the text determines
  have hcanonical := (symbolsText_inj (hleft hsymbol) (hleft hsymbol')).trans
    unfiltered_symbolsOf_eq_iff
  rw [hiff, hiff']
  refine ⟨hcanonical, fun hsub hrest => hcanonical.mpr fun s hs => ?_, ?_, fun symbol => ?_,
    fun symbol filter' => ?_⟩
  · refine ⟨fun ⟨pkt, hpkt, hsym⟩ => ⟨pkt, hsub hpkt, hsym⟩, ?_⟩
    rintro ⟨pkt, hpkt, rfl⟩
    exact ⟨pkt, (hrest pkt hpkt).resolve_right hs, rfl⟩
  · have hempty : "NORESPONSE".toList = symbolsText [] := rfl
    rw [hempty, symbolsText_inj (hleft hsymbol) fun _ h => absurd h List.not_mem_nil,
      List.eq_nil_iff_forall_not_mem]
    simp only [mem_unfiltered, mem_symbolsOf]
    constructor
    · intro h pkt hpkt
      by_contra hpass
      exact h _ ⟨⟨pkt, hpkt, rfl⟩, hpass⟩
    · rintro h s ⟨⟨pkt, hpkt, rfl⟩, hpass⟩
      exact hpass (h pkt hpkt)
  · rw [filterSymbol_filterSymbol]
    exact filterSymbol_congr _ fun s => by simp
  · rw [filterSymbol_filterSymbol, filterSymbol_filterSymbol]
    exact ⟨rfl, filterSymbol_congr _ fun s => by simp [or_comm]⟩

/-- Summaries of one letter, for packets of the advertising channels and for others. -/
def letterScapy : Scapy where
  raw _ := []
  btle _ := ⟨[]⟩
  hciHdr _ := ⟨[]⟩
  summary pkt := if pkt.hasBtleAdv then ['A'] else ['D']

/-- An object whose table knows none of these summaries. -/
def letterWorld : World Unit :=
  { plainWorld 0 [] with self := { (plainWorld 0 []).self with symbols := some [] } }

/-- With data packets filtered, a data packet between two scan responses does not show. -/
theorem filterSymbol_outputSymbol_data :
    filterSymbol ['A'] [['D']] = filterSymbol ['A', '+', 'D'] [['D']] := by
  let scanRsp : Pkt := ⟨[.btle 0x8E89BED6, .btleAdv 0 0, .btleScanRsp plainAddress]⟩
  let data : Pkt := ⟨[.btle 7, .btleData none]⟩
  have hsymbol (pkt : Pkt) : IsSymbol
      (packetSymbol (plainLib letterScapy) (letterWorld.table (plainLib letterScapy)) pkt) := by
    have hsummary : packetSymbol (plainLib letterScapy)
        (letterWorld.table (plainLib letterScapy)) pkt = ['A'] ∨
      packetSymbol (plainLib letterScapy) (letterWorld.table (plainLib letterScapy)) pkt = ['D'] := by
      by_cases h : pkt.hasBtleAdv = true
      · left
        simp [packetSymbol, letterWorld, World.table, plainLib, letterScapy, h, replaceSlash]
      · right
        simp [packetSymbol, letterWorld, World.table, plainLib, letterScapy, h, replaceSlash]
    rcases hsummary with h | h <;> rw [h] <;> exact ⟨by decide, by decide, by decide⟩
  have hfiltered : packetSymbol (plainLib letterScapy)
      (letterWorld.table (plainLib letterScapy)) data = ['D'] := by decide +kernel
  refine (@filterSymbol_outputSymbol _ (plainLib letterScapy) letterWorld
    [scanRsp] [scanRsp, data, scanRsp] _ _ (fun pkt _ => hsymbol pkt)
    (fun pkt _ => hsymbol pkt) (by decide +kernel) (by decide +kernel) [['D']]).2.1 ?_ ?_
  · simp
  · simp [hfiltered]

end BleFuzzer.Mapper
