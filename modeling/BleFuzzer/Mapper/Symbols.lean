import BleFuzzer.Mapper.Packets
import Mathlib.Data.Char
import Mathlib.Data.List.Infix
import Mathlib.Data.List.Lex
import Mathlib.Data.List.Sort

/-!
# Output symbols

How received packets become the text that the learner sees. The lookup table is built at its first
use, from the packets the object builds at that time.
-/

namespace BleFuzzer.Mapper

variable {τ : Type} (lib : Lib τ)

/-- `'+'.join(symbols)`. -/
def joinSymbols (symbols : List Text) : Text := ['+'].intercalate symbols

/-- `s.replace(' / ', '>')`. -/
def replaceSlash : Text → Text
  | ' ' :: '/' :: ' ' :: rest => '>' :: replaceSlash rest
  | c :: rest => c :: replaceSlash rest
  | [] => []

/-- `BLESUL.filter_symbol`. -/
def filterSymbol (symbol : Text) (filter : List Text) : Text :=
  let symbol := joinSymbols ((symbol.splitOn '+').filter fun s => !filter.contains s)
  if symbol = [] then "NORESPONSE".toList else symbol

/-- The table from summaries to symbols: of two packets with one summary, the later wins. -/
def symbolTable (self : Blesul) : List (Text × Text) :=
  (InputSymbol.all.map fun sym => (lib.scapy.summary (packets sym self), sym.name.toList)).reverse

/-- The symbol of a packet. -/
def packetSymbol (table : List (Text × Text)) (pkt : Pkt) : Text :=
  (table.lookup (lib.scapy.summary pkt)).getD (replaceSlash (lib.scapy.summary pkt))

/-- The combined symbol of a list of packets, from the table. -/
def packetsSymbol (table : List (Text × Text)) (pkts : List Pkt) : Text :=
  if pkts = [] then
    "NORESPONSE".toList
  else
    joinSymbols ((pkts.map (packetSymbol lib table)).dedup.insertionSort (· ≤ ·))

/-- `self.symbols`, created when it does not exist. -/
def getSymbols : Program τ (List (Text × Text)) := do
  let self ← getSelf
  match self.symbols with
  | some table => return table
  | none =>
    modifySelf fun self => { self with symbols := some (symbolTable lib self) }
    return symbolTable lib self

/-- `BLESUL.output_symbol`. -/
def outputSymbol (pkts : List Pkt) : Program τ Text := do
  let table ← getSymbols lib
  return packetsSymbol lib table pkts

/-! ## What they return -/

variable {lib}

/-- `getSymbols` returns the table of the object, or else creates one. -/
theorem getSymbols_returns (w : World τ) :
    (getSymbols lib).Returns w (w.self.symbols.getD (symbolTable lib w.self))
      { w with self := { w.self with
        symbols := some (w.self.symbols.getD (symbolTable lib w.self)) } } := by
  refine (getSelf_returns w).bind ?_
  match htable : w.self.symbols with
  | none => exact (Exec.Returns.modify _ w).bind (.pure _ _)
  | some table =>
    have hw : { w with self := { w.self with symbols := some table } } = w := by rw [← htable]
    rw [Option.getD_some, hw]
    exact .pure _ _

/-- `output_symbol` never raises, and creates the table of symbols if need be. -/
theorem outputSymbol_ok (w : World τ) (pkts : List Pkt) :
    (outputSymbol lib pkts).Returns w
      (packetsSymbol lib (w.self.symbols.getD (symbolTable lib w.self)) pkts)
      { w with self := { w.self with
        symbols := some (w.self.symbols.getD (symbolTable lib w.self)) } } :=
  (getSymbols_returns w).bind (.pure _ _)

end BleFuzzer.Mapper
