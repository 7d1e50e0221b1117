import GrowBuffer.Config.Display
import GrowBuffer.Config.Document
import GrowBuffer.Config.Environment
import GrowBuffer.Proofs.Accounting
import GrowBuffer.Proofs.Agreement
import GrowBuffer.Proofs.Ceiling
import GrowBuffer.Proofs.Committing
import GrowBuffer.Proofs.Copies
import GrowBuffer.Proofs.Counting
import GrowBuffer.Proofs.Demands
import GrowBuffer.Proofs.Detaching
import GrowBuffer.Proofs.Documents
import GrowBuffer.Proofs.Doubling
import GrowBuffer.Proofs.Failure
import GrowBuffer.Proofs.Grammar
import GrowBuffer.Proofs.Lending
import GrowBuffer.Proofs.Lexemes
import GrowBuffer.Proofs.Members
import GrowBuffer.Proofs.Migration
import GrowBuffer.Proofs.Numerals
import GrowBuffer.Proofs.Passes
import GrowBuffer.Proofs.Refinement
import GrowBuffer.Proofs.Requests
import GrowBuffer.Proofs.Reserving
import GrowBuffer.Proofs.Resizing
import GrowBuffer.Proofs.Scoping
import GrowBuffer.Proofs.Scribbling
import GrowBuffer.Proofs.Skipping
import GrowBuffer.Proofs.Streaming
import GrowBuffer.Proofs.Targets
import GrowBuffer.Proofs.Terminators
import GrowBuffer.Proofs.Tokens
import GrowBuffer.Proofs.Variables
import GrowBuffer.Script.Scoped
import GrowBuffer.Script.Session
import GrowBuffer.Script.Workbench
