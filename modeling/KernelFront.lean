import KernelFront.Declaration.Print
import KernelFront.Main
import KernelFront.Proofs.Declaration.Alignment
import KernelFront.Proofs.Declaration.Composition
import KernelFront.Proofs.Declaration.Histories
import KernelFront.Proofs.Declaration.SelfEquality
import KernelFront.Proofs.Folding.Places
import KernelFront.Proofs.Folding.Results
import KernelFront.Proofs.Folding.Signs
import KernelFront.Proofs.Folding.Upgrades
import KernelFront.Proofs.Literal.Doubles
import KernelFront.Proofs.Literal.Exponents
import KernelFront.Proofs.Literal.Printing
import KernelFront.Proofs.Literal.Singles
import KernelFront.Proofs.Outcome.Sequencing
import KernelFront.Proofs.Value.Comparisons
import KernelFront.Proofs.Value.Detours
import KernelFront.Proofs.Value.Division
import KernelFront.Proofs.Value.Steps
import KernelFront.Proofs.Value.Truth
import KernelFront.Proofs.Value.Updates
