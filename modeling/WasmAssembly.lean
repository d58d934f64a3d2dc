import WasmAssembly.Assembler.Session
import WasmAssembly.Builder.Probe
import WasmAssembly.Main
import WasmAssembly.Proofs.Phrase
import WasmAssembly.Proofs.Reading
import WasmAssembly.Proofs.Grammar
import WasmAssembly.Proofs.Handover
import WasmAssembly.Proofs.Lexeme
import WasmAssembly.Proofs.Spacing
import WasmAssembly.Proofs.Numeral
import WasmAssembly.Proofs.Denotation
import WasmAssembly.Proofs.Printing
import WasmAssembly.Proofs.Vocabulary
import WasmAssembly.Proofs.Spelling
import WasmAssembly.Proofs.Normalising
import WasmAssembly.Proofs.Composition
import WasmAssembly.Proofs.Session
import WasmAssembly.Proofs.Interning
import WasmAssembly.Proofs.EmissionOrder
import WasmAssembly.Proofs.Reordering
import WasmAssembly.Proofs.Placement
import WasmAssembly.Proofs.LastPlacement
import WasmAssembly.Proofs.Numbering
import WasmAssembly.Proofs.Diagnosis
import WasmAssembly.Proofs.Relisting
import WasmAssembly.Proofs.Delivery
import WasmAssembly.Proofs.Layout
import WasmAssembly.Proofs.TypeGrid
import WasmAssembly.Proofs.InstructionGrid
import WasmAssembly.Proofs.Tracing
import WasmAssembly.Proofs.Relocation
import WasmAssembly.Proofs.Wording
import WasmAssembly.Proofs.TypeLog
import WasmAssembly.Proofs.Tallying
import WasmAssembly.Proofs.Verbosity
import WasmAssembly.Proofs.ArgumentOrder
